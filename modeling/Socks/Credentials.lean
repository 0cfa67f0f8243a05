/-!
# Credentials

Which user names and passwords belong together. A table of them is one way to tell; the last
password given for a name is the one that counts (`Credentials.password?_add`).
-/

namespace Socks

/-- A judgement on user names and passwords. -/
abbrev CredentialStore := String → String → Bool

/-- A table of users and their passwords, each user once. -/
structure Credentials where
  entries : List (String × String)

namespace Credentials

/-- The table without users. -/
def empty : Credentials := ⟨[]⟩

/-- Sets the password of a user. -/
def add (c : Credentials) (user password : String) : Credentials :=
  ⟨(user, password) :: c.entries.filter fun e => e.1 != user⟩

/-- The table after users are added one by one. -/
def ofList (users : List (String × String)) : Credentials :=
  users.foldl (fun c e => c.add e.1 e.2) empty

/-- The password of a user. -/
def password? (c : Credentials) (user : String) : Option String :=
  (c.entries.find? fun e => e.1 == user).map Prod.snd

/-- Whether a user has this password. -/
def accepts (c : Credentials) : CredentialStore := fun user password =>
  c.password? user == some password

/-- The number of users. -/
def size (c : Credentials) : Nat := c.entries.length

theorem password?_add (c : Credentials) (user password name : String) :
    (c.add user password).password? name =
      if name = user then some password else c.password? name := by
  unfold password? add
  by_cases h : name = user
  · subst h
    simp
  · have hu : (user == name) = false := by simpa using fun e => h e.symm
    simp only [List.find?_cons, hu, h, if_false]
    congr 1
    rw [List.find?_filter]
    congr 1
    funext e
    by_cases he : e.1 = name
    · simp [he, h]
    · simp [he]

end Credentials

end Socks
