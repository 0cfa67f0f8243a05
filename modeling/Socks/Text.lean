import Socks.Bytes

/-!
# Text on the wire

Names, passwords and files are UTF-8. Main statement: octets read as a text exactly when they are
the octets of that text (`Text.ofBytes?_eq_some_iff`).
-/

namespace Socks.Text

/-- The UTF-8 octets of a text. -/
def toBytes (s : String) : Bytes := s.toByteArray.data.toList

/-- The text whose UTF-8 octets these are, if they are well formed. -/
def ofBytes? (bytes : Bytes) : Option String := String.fromUTF8? ⟨bytes.toArray⟩

@[simp] theorem ofBytes?_toBytes (s : String) : ofBytes? (toBytes s) = some s := by
  have h : (ByteArray.mk (toBytes s).toArray) = s.toByteArray := by simp [toBytes]
  simp only [ofBytes?, h, String.fromUTF8?, s.isValidUTF8, dite_true]
  rfl

theorem ofBytes?_eq_some_iff {bytes : Bytes} {s : String} :
    ofBytes? bytes = some s ↔ bytes = toBytes s := by
  constructor
  · intro h
    simp only [ofBytes?, String.fromUTF8?] at h
    split at h
    · cases h
      simp [toBytes, String.fromUTF8]
    · cases h
  · rintro rfl
    exact ofBytes?_toBytes s

theorem toBytes_inj {s t : String} : toBytes s = toBytes t ↔ s = t := by
  constructor
  · intro h
    have := ofBytes?_toBytes s
    rw [h, ofBytes?_toBytes] at this
    exact (Option.some.inj this).symm
  · rintro rfl
    rfl

@[simp] theorem toBytes_empty : toBytes "" = [] := rfl

theorem toBytes_eq_nil_iff {s : String} : toBytes s = [] ↔ s = "" := by
  rw [← toBytes_empty, toBytes_inj]

end Socks.Text
