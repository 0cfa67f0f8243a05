import Mathlib.Data.List.Nodup
import Socks.Toml.Parser

/-!
# Documents are proper

In a proper value no table has a key twice, and integers have 64 bits. The tables of an unfinished
document are proper as well, and every line keeps them so: what a header closes goes back to the
place from which it was taken, where its key has been free since.

Main statement: whatever is read from a text is a proper document (`Toml.proper_of_parse?`).
-/

namespace Socks.Toml

variable {α β : Type}

/-! ### Proper values -/

/-- The keys of a table, finished or not. -/
abbrev keys (entries : List (String × α)) : List String := entries.map Prod.fst

/-- A value in which no key of a table stands twice, and whose integers have 64 bits. -/
inductive Value.Proper : Value → Prop
  | string (text : String) : Proper (.string text)
  | integer {n : Int} :
      -9223372036854775808 ≤ n → n < 9223372036854775808 → Proper (.integer n)
  | float (x : Binary64) : Proper (.float x)
  | boolean (b : Bool) : Proper (.boolean b)
  | moment : Proper .moment
  | array {items : List Value} : (∀ v ∈ items, Proper v) → Proper (.array items)
  | table {entries : Table} :
      (keys entries).Nodup → (∀ e ∈ entries, Proper e.2) → Proper (.table entries)

/-- A table in which no key stands twice, and whose values are proper. -/
structure Table.Proper (t : Table) : Prop where
  nodup : (keys t).Nodup
  values : ∀ e ∈ t, e.2.Proper

theorem Value.proper_table_iff {t : Table} : (Value.table t).Proper ↔ t.Proper := by
  constructor
  · intro h
    cases h with
    | table hnodup hvalues => exact ⟨hnodup, hvalues⟩
  · rintro ⟨hnodup, hvalues⟩
    exact .table hnodup hvalues

theorem Table.proper_nil : Table.Proper [] := ⟨List.nodup_nil, by simp⟩

namespace Table

variable {t t' : Table} {known : List String} {key : String} {v : Value}

/-- In a proper table a key has the value that stands beside it. -/
theorem Proper.get?_eq_some_iff (h : t.Proper) : t.get? key = some v ↔ (key, v) ∈ t := by
  constructor
  · intro hv
    obtain ⟨e, he, rfl⟩ := Option.map_eq_some_iff.mp hv
    obtain rfl : e.1 = key := by simpa using List.find?_some he
    exact List.mem_of_find?_eq_some he
  · intro hmem
    have hsome : (t.find? fun e => e.1 == key).isSome = true :=
      List.find?_isSome.mpr ⟨(key, v), hmem, beq_self_eq_true key⟩
    obtain ⟨e, he⟩ := Option.isSome_iff_exists.mp hsome
    have hkey : e.1 = key := by simpa using List.find?_some he
    have hev : e = (key, v) :=
      List.inj_on_of_nodup_map h.nodup (List.mem_of_find?_eq_some he) hmem hkey
    rw [get?, he, hev, Option.map_some]

theorem Proper.get? (h : t.Proper) (hv : t.get? key = some v) : v.Proper :=
  h.values (key, v) (h.get?_eq_some_iff.mp hv)

/-- Two tables that differ in the order of their entries, and in entries of unknown keys. -/
def Rearranges (known : List String) (t t' : Table) : Prop :=
  (t.filter fun e => known.contains e.1).Perm (t'.filter fun e => known.contains e.1)

/-- A key that is known keeps its value when a table is rearranged. -/
theorem Rearranges.get?_eq (h : Rearranges known t t') (ht : t.Proper) (ht' : t'.Proper)
    (hkey : key ∈ known) : t.get? key = t'.get? key := by
  have hiff : ∀ v, (key, v) ∈ t ↔ (key, v) ∈ t' := by
    intro v
    have hmem := h.mem_iff (a := (key, v))
    simpa [hkey] using hmem
  refine Option.ext fun v => ?_
  rw [ht.get?_eq_some_iff, ht'.get?_eq_some_iff]
  exact hiff v

end Table

/-- A part of an unfinished document whose values are proper, and in whose tables no key stands
twice. -/
inductive Node.Proper : Node → Prop
  | leaf {v : Value} : v.Proper → Proper (.leaf v)
  | table {origin : Origin} {es : Entries} :
      (keys es).Nodup → (∀ e ∈ es, Proper e.2) → Proper (.table origin es)
  | tables {elements : List Entries} :
      (∀ es ∈ elements, (keys es).Nodup) → (∀ es ∈ elements, ∀ e ∈ es, Proper e.2) →
        Proper (.tables elements)

namespace Entries

/-- The contents of an unfinished table in which no key stands twice. -/
structure Proper (es : Entries) : Prop where
  nodup : (keys es).Nodup
  nodes : ∀ e ∈ es, e.2.Proper

variable {es : Entries} {key : String} {n : Node}

theorem proper_nil : Proper [] := ⟨List.nodup_nil, by simp⟩

theorem proper_table_iff {origin : Origin} : (Node.table origin es).Proper ↔ es.Proper := by
  constructor
  · intro h
    cases h with
    | table hnodup hnodes => exact ⟨hnodup, hnodes⟩
  · rintro ⟨hnodup, hnodes⟩
    exact .table hnodup hnodes

theorem proper_tables_iff {elements : List Entries} :
    (Node.tables elements).Proper ↔ ∀ es ∈ elements, es.Proper := by
  constructor
  · intro h
    cases h with
    | tables hnodup hnodes => exact fun es hes => ⟨hnodup es hes, hnodes es hes⟩
  · intro h
    exact .tables (fun es hes => (h es hes).nodup) (fun es hes => (h es hes).nodes)

/-! ### Changes of one table -/

theorem get?_eq_none_iff : es.get? key = none ↔ key ∉ keys es := by
  rw [get?, Option.map_eq_none_iff, List.find?_eq_none, keys, List.mem_map, not_exists]
  simp

theorem Proper.get? (h : es.Proper) (hn : es.get? key = some n) : n.Proper := by
  obtain ⟨e, he, rfl⟩ := Option.map_eq_some_iff.mp hn
  exact h.nodes e (List.mem_of_find?_eq_some he)

/-- A key that is not there can be added. -/
theorem Proper.append (h : es.Proper) (hkey : es.get? key = none) (hn : n.Proper) :
    (es.append key n).Proper := by
  refine ⟨?_, ?_⟩
  · rw [Entries.append, keys, List.map_append, List.nodup_append]
    refine ⟨h.nodup, by simp, ?_⟩
    rintro a ha b hb rfl
    obtain rfl : a = key := by simpa using hb
    exact get?_eq_none_iff.mp hkey ha
  · intro e he
    rcases List.mem_append.mp he with he | he
    · exact h.nodes e he
    · obtain rfl := List.mem_singleton.mp he
      exact hn

theorem keys_replace (es : Entries) (key : String) (n : Node) :
    keys (es.replace key n) = keys es := by
  rw [replace, keys, List.map_map]
  refine List.map_congr_left fun e _ => ?_
  by_cases he : e.1 = key
  · simp [he]
  · simp [he]

/-- What a key holds can be put in the place of something else. -/
theorem Proper.replace (h : es.Proper) (key : String) (hn : n.Proper) :
    (es.replace key n).Proper := by
  refine ⟨by rw [keys_replace]; exact h.nodup, fun e he => ?_⟩
  obtain ⟨e', he', rfl⟩ := List.mem_map.mp he
  split_ifs
  · exact hn
  · exact h.nodes e' he'

theorem Proper.erase (h : es.Proper) (key : String) : (es.erase key).Proper := by
  have hsub : (es.erase key).Sublist es := List.filter_sublist
  exact ⟨(hsub.map Prod.fst).nodup h.nodup, fun e he => h.nodes e (hsub.subset he)⟩

theorem get?_erase (es : Entries) (key : String) : (es.erase key).get? key = none := by
  rw [get?_eq_none_iff]
  simp [Entries.erase]

theorem get?_append (hkey : es.get? key = none) : (es.append key n).get? key = some n := by
  unfold get? at hkey ⊢
  rw [Option.map_eq_none_iff] at hkey
  rw [Entries.append, List.find?_append, hkey]
  simp

theorem get?_replace {m : Node} (hm : es.get? key = some m) :
    (es.replace key n).get? key = some n := by
  obtain ⟨e, he, -⟩ := Option.map_eq_some_iff.mp hm
  have hkeys : ((fun e : String × Node => e.1 == key) ∘
      fun e => if e.1 == key then (key, n) else e) = fun e => e.1 == key := by
    funext e
    by_cases hkey : e.1 = key <;> simp [hkey]
  have hkey : e.1 = key := by simpa using List.find?_some he
  rw [get?, Entries.replace, List.find?_map, hkeys, he]
  simp [hkey]

/-! ### Changes at the end of a path -/

/-- `Leads change path origin es es' a`: a change of the table at the end of a path, which brings
`a`, makes `es'` of `es`. -/
inductive Leads (change : Origin → Entries → Option (Entries × α)) :
    List String → Origin → Entries → Entries → α → Prop
  | here {origin : Origin} {es es' : Entries} {a : α} :
      change origin es = some (es', a) → Leads change [] origin es es' a
  | made {key : String} {path : List String} {origin : Origin} {es inner : Entries} {a : α}
      (made : Origin) : es.get? key = none → Leads change path made [] inner a →
        Leads change (key :: path) origin es (es.append key (.table made inner)) a
  | table {key : String} {path : List String} {origin found : Origin} {es inner inner' : Entries}
      {a : α} : es.get? key = some (.table found inner) →
        Leads change path found inner inner' a →
        Leads change (key :: path) origin es (es.replace key (.table found inner')) a
  | tables {key : String} {path : List String} {origin : Origin} {es last last' : Entries}
      {elements : List Entries} {a : α} : es.get? key = some (.tables elements) →
        elements.getLast? = some last → Leads change path .header last last' a →
        Leads change (key :: path) origin es
          (es.replace key (.tables (elements.dropLast ++ [last']))) a

section paths

variable {change : Origin → Entries → Option (Entries × α)}
  {later : Origin → Entries → Option (Entries × β)} {path : List String} {origin : Origin}
  {es' : Entries} {a : α} {P : α → Prop}

/-- Whatever is done at the end of a path leads there. -/
theorem leads_of_descend {dotted : Bool}
    (h : descend dotted change path origin es = some (es', a)) :
    Leads change path origin es es' a := by
  induction path generalizing origin es es' with
  | nil => exact .here h
  | cons key path ih =>
      unfold descend at h
      cases hkey : es.get? key with
      | none =>
          rw [hkey] at h
          obtain ⟨⟨inner, b⟩, hinner, he⟩ := Option.bind_eq_some_iff.mp h
          cases he
          exact .made _ hkey (ih hinner)
      | some n =>
          rw [hkey] at h
          cases n with
          | leaf v => cases h
          | table found inner =>
              dsimp only at h
              split_ifs at h
              obtain ⟨⟨inner', b⟩, hinner, he⟩ := Option.bind_eq_some_iff.mp h
              cases he
              exact .table hkey (ih hinner)
          | tables elements =>
              obtain ⟨last, hlast, h⟩ := Option.bind_eq_some_iff.mp h
              obtain ⟨⟨last', b⟩, hlast', he⟩ := Option.bind_eq_some_iff.mp h
              cases he
              exact .tables hkey hlast (ih hlast')

/-- The other tables of an array stay as they are when the last one changes. -/
theorem proper_tables_last {elements : List Entries} {last : Entries}
    (h : (Node.tables elements).Proper) (hlast : last.Proper) :
    (Node.tables (elements.dropLast ++ [last])).Proper := by
  rw [proper_tables_iff] at h ⊢
  intro es hes
  rcases List.mem_append.mp hes with hes | hes
  · exact h es (List.dropLast_subset _ hes)
  · obtain rfl := List.mem_singleton.mp hes
    exact hlast

/-- Of proper tables a change makes proper tables, of which a later one does too; and `P` holds of
what the change brings. -/
def Keeps (change : Origin → Entries → Option (Entries × α))
    (later : Origin → Entries → Option (Entries × β)) (P : α → Prop) : Prop :=
  ∀ origin es es' a, Proper es → change origin es = some (es', a) →
    Proper es' ∧ P a ∧ ∀ origin' es'' b, later origin' es' = some (es'', b) → Proper es''

/-- A path that begins with the key of a table goes on in that table. -/
theorem Leads.proper_of_table {key : String} {found : Origin} {inner : Entries}
    (h : Leads change (key :: path) origin es es' a) (hes : es.Proper)
    (hkey : es.get? key = some (.table found inner))
    (hinner : ∀ origin inner' a, Leads change path origin inner inner' a → Proper inner') :
    es'.Proper := by
  cases h with
  | made made hkey' _ => cases hkey.symm.trans hkey'
  | table hkey' h =>
      cases hkey.symm.trans hkey'
      exact hes.replace _ (proper_table_iff.mpr (hinner _ _ _ h))
  | tables hkey' _ _ => cases hkey.symm.trans hkey'

/-- A path that begins with the key of an array of tables goes on in the last of them. -/
theorem Leads.proper_of_tables {key : String} {elements : List Entries} {last : Entries}
    (h : Leads change (key :: path) origin es es' a) (hes : es.Proper)
    (hkey : es.get? key = some (.tables elements)) (hlast : elements.getLast? = some last)
    (hinner : ∀ origin last' a, Leads change path origin last last' a → Proper last') :
    es'.Proper := by
  cases h with
  | made made hkey' _ => cases hkey.symm.trans hkey'
  | table hkey' _ => cases hkey.symm.trans hkey'
  | tables hkey' hlast' h =>
      cases hkey.symm.trans hkey'
      cases hlast.symm.trans hlast'
      exact hes.replace _ (proper_tables_last (hes.get? hkey) (hinner _ _ _ h))

/-- What changes keep, they keep at the end of a path. -/
theorem Leads.keeps (h : Leads change path origin es es' a) (hkeeps : Keeps change later P)
    (hes : es.Proper) :
    es'.Proper ∧ P a ∧
      ∀ origin' es'' b, Leads later path origin' es' es'' b → Proper es'' := by
  induction h with
  | here h =>
      obtain ⟨hes', ha, hlater⟩ := hkeeps _ _ _ _ hes h
      refine ⟨hes', ha, fun origin' es'' b h => ?_⟩
      cases h with
      | here h => exact hlater _ _ _ h
  | made made hkey _ ih =>
      obtain ⟨hinner, ha, hlater⟩ := ih proper_nil
      have hmade : (Node.table made _).Proper := proper_table_iff.mpr hinner
      have hes' := hes.append hkey hmade
      exact ⟨hes', ha, fun _ _ _ h => h.proper_of_table hes' (get?_append hkey) hlater⟩
  | @table key _ _ found _ _ _ _ hkey _ ih =>
      obtain ⟨hinner, ha, hlater⟩ := ih (proper_table_iff.mp (hes.get? hkey))
      have hfound : (Node.table found _).Proper := proper_table_iff.mpr hinner
      have hes' := hes.replace key hfound
      exact ⟨hes', ha, fun _ _ _ h => h.proper_of_table hes' (get?_replace hkey) hlater⟩
  | @tables key _ _ _ _ _ _ _ hkey hlast _ ih =>
      have helements := hes.get? hkey
      obtain ⟨hlast', ha, hlater⟩ :=
        ih (proper_tables_iff.mp helements _ (List.mem_of_getLast? hlast))
      have hes' := hes.replace key (proper_tables_last helements hlast')
      exact ⟨hes', ha, fun _ _ _ h =>
        h.proper_of_tables hes' (get?_replace hkey) List.getLast?_concat hlater⟩

/-- A change that makes proper tables of proper tables does so at the end of a path. -/
theorem Leads.proper (h : Leads change path origin es es' a)
    (hchange : ∀ origin inner inner' a, Proper inner → change origin inner = some (inner', a) →
      Proper inner') (hes : es.Proper) : es'.Proper := by
  have hkeeps : Keeps change (fun _ _ => (none : Option (Entries × Unit))) (fun _ => True) := by
    intro origin inner inner' a hinner hdone
    exact ⟨hchange origin inner inner' a hinner hdone, trivial, by simp⟩
  exact (h.keeps hkeeps hes).1

end paths

/-! ### Definitions and headers -/

variable {path : List String} {es' contents : Entries}

/-- A value under a new key keeps a document proper. -/
theorem Proper.define {v : Value} (h : es.Proper) (hv : v.Proper)
    (hd : es.define path key v = some es') : es'.Proper := by
  unfold Entries.define at hd
  replace hd := Option.map_eq_some_iff.mp hd
  obtain ⟨⟨_, a⟩, hd, rfl⟩ := hd
  refine (leads_of_descend hd).proper (fun origin inner inner' a hinner hput => ?_) h
  split_ifs at hput with hplace hkey
  cases hput
  exact hinner.append (by simpa using hkey) (.leaf hv)

/-- The table of a header has proper contents, and the place from which it is taken is ready for
others. -/
theorem Proper.openTable {closed : Entries} (h : es.Proper)
    (ho : es.openTable path key = some (closed, contents)) :
    contents.Proper ∧ ∀ more es', Proper more → closed.closeTable path key more = some es' →
      es'.Proper := by
  unfold Entries.openTable at ho
  -- The key is free where the table was taken away, so it is there only once when it is put back.
  have hkept : ∀ more, Proper more → closed.Proper ∧ contents.Proper ∧ ∀ origin es' b,
      Leads (fun _ inner => some (inner.append key (.table .header more), ())) path origin closed
        es' b → Proper es' := by
    intro more hmore
    refine (leads_of_descend ho).keeps (fun origin inner inner' a hinner htake => ?_) h
    dsimp only at htake
    split at htake
    · rename_i hkey
      cases htake
      refine ⟨hinner, proper_nil, fun _ es'' b hput => ?_⟩
      cases hput
      exact hinner.append hkey (proper_table_iff.mpr hmore)
    · rename_i hkey
      cases htake
      refine ⟨hinner.erase key, proper_table_iff.mp (hinner.get? hkey), fun _ es'' b hput => ?_⟩
      cases hput
      exact (hinner.erase key).append (get?_erase inner key) (proper_table_iff.mpr hmore)
    · cases htake
  refine ⟨(hkept [] proper_nil).2.1, fun more es' hmore hc => ?_⟩
  unfold Entries.closeTable at hc
  replace hc := Option.map_eq_some_iff.mp hc
  obtain ⟨⟨_, a⟩, hc, rfl⟩ := hc
  exact (hkept more hmore).2.2 _ _ _ (leads_of_descend hc)

/-- An array that takes one more table. -/
theorem Proper.openElement (h : es.Proper) (ho : es.openElement path key = some es') :
    es'.Proper := by
  unfold Entries.openElement at ho
  replace ho := Option.map_eq_some_iff.mp ho
  obtain ⟨⟨_, a⟩, ho, rfl⟩ := ho
  refine (leads_of_descend ho).proper (fun origin inner inner' a hinner hprepare => ?_) h
  split at hprepare
  · rename_i hkey
    cases hprepare
    exact hinner.append hkey (proper_tables_iff.mpr (by simp))
  · cases hprepare
    exact hinner
  · cases hprepare

/-- A table more in an array. -/
theorem Proper.closeElement (h : es.Proper) (hcontents : contents.Proper)
    (hc : es.closeElement path key contents = some es') : es'.Proper := by
  unfold Entries.closeElement at hc
  replace hc := Option.map_eq_some_iff.mp hc
  obtain ⟨⟨_, a⟩, hc, rfl⟩ := hc
  refine (leads_of_descend hc).proper (fun origin inner inner' a hinner hput => ?_) h
  split at hput
  · rename_i elements hkey
    cases hput
    refine hinner.replace key (proper_tables_iff.mpr fun es hes => ?_)
    rcases List.mem_append.mp hes with hes | hes
    · exact proper_tables_iff.mp (hinner.get? hkey) es hes
    · obtain rfl := List.mem_singleton.mp hes
      exact hcontents
  · cases hput

end Entries

/-! ### Finished documents -/

theorem Entries.toTable_eq_map (es : Entries) :
    Entries.toTable es = es.map fun e => (e.1, e.2.toValue) := by
  induction es with
  | nil => rw [Entries.toTable, List.map_nil]
  | cons e es ih => rw [Entries.toTable, ih, List.map_cons]

theorem Entries.toItems_eq_map (elements : List Entries) :
    Entries.toItems elements = elements.map fun es => .table (Entries.toTable es) := by
  induction elements with
  | nil => rw [Entries.toItems, List.map_nil]
  | cons es elements ih => rw [Entries.toItems, ih, List.map_cons]

/-- Finished tables have the keys of the unfinished ones. -/
theorem Entries.proper_toTable {es : Entries} (hnodup : (keys es).Nodup)
    (hvalues : ∀ e ∈ es, e.2.toValue.Proper) : Table.Proper (Entries.toTable es) := by
  rw [toTable_eq_map]
  refine ⟨?_, fun e he => ?_⟩
  · rw [keys, List.map_map]
    exact hnodup
  · obtain ⟨e', he', rfl⟩ := List.mem_map.mp he
    exact hvalues e' he'

/-- What has become of a proper part is proper. -/
theorem Node.Proper.toValue {n : Node} (h : n.Proper) : n.toValue.Proper := by
  induction h with
  | leaf hv =>
      rw [Node.toValue]
      exact hv
  | table hnodup _ ih =>
      rw [Node.toValue, Value.proper_table_iff]
      exact Entries.proper_toTable hnodup ih
  | tables hnodup _ ih =>
      rw [Node.toValue, Entries.toItems_eq_map]
      refine .array fun v hv => ?_
      obtain ⟨es, hes, rfl⟩ := List.mem_map.mp hv
      exact Value.proper_table_iff.mpr (Entries.proper_toTable (hnodup es hes) (ih es hes))

theorem Entries.Proper.toTable {es : Entries} (h : es.Proper) :
    Table.Proper (Entries.toTable es) :=
  proper_toTable h.nodup fun e he => (h.nodes e he).toValue

/-! ### What scanners read -/

namespace Scanner

variable {p : Scanner α} {f : α → Scanner β} {P : α → Prop} {Q : β → Prop}

/-- Whatever a scanner reads is as told. -/
def Yields (p : Scanner α) (P : α → Prop) : Prop := ∀ text a rest, p text = some (a, rest) → P a

theorem Yields.bind (hp : p.Yields P) (hf : ∀ a, P a → (f a).Yields Q) : (p >>= f).Yields Q := by
  intro text b rest h
  obtain ⟨⟨a, left⟩, ha, hb⟩ := Option.bind_eq_some_iff.mp h
  exact hf a (hp text a left ha) left b rest hb

/-- What is read first may be anything. -/
theorem Yields.after (hf : ∀ a, (f a).Yields Q) : (p >>= f).Yields Q :=
  Yields.bind (P := fun _ => True) (fun _ _ _ _ => trivial) fun a _ => hf a

theorem yields_pure {a : α} (h : P a) : (pure a : Scanner α).Yields P := by
  intro text b rest hb
  cases hb
  exact h

theorem yields_failure : (failure : Scanner α).Yields P := by
  intro text a rest h
  cases h

theorem Yields.orElse {q : Scanner α} (hp : p.Yields P) (hq : q.Yields P) :
    (p <|> q).Yields P := by
  intro text a rest h
  change (p text <|> q text) = some (a, rest) at h
  cases hpt : p text with
  | none =>
      rw [hpt] at h
      exact hq text a rest h
  | some r =>
      rw [hpt] at h
      cases h
      exact hp text a rest hpt

theorem Yields.optional (hp : p.Yields P) : (optional p).Yields fun a? => ∀ a ∈ a?, P a := by
  change (some <$> p <|> pure none).Yields _
  rw [map_eq_pure_bind]
  exact (hp.bind fun a ha => yields_pure (by simpa using ha)).orElse (yields_pure (by simp))

theorem Yields.upTo (hp : p.Yields P) (n : Nat) : (upTo p n).Yields fun as => ∀ a ∈ as, P a := by
  induction n with
  | zero => exact yields_pure (by simp)
  | succ n ih =>
      intro text as rest h
      unfold Scanner.upTo at h
      split at h
      · cases h
        simp
      · rename_i a left ha
        split at h
        · cases h
        · rename_i more rest' hmore
          cases h
          exact List.forall_mem_cons.mpr ⟨hp _ _ _ ha, ih _ _ _ hmore⟩

theorem Yields.many (hp : p.Yields P) : (many p).Yields fun as => ∀ a ∈ as, P a :=
  fun text => hp.upTo text.length text

theorem Yields.separated {separator : Scanner Unit} (hp : p.Yields P) :
    (separated p separator).Yields fun as => ∀ a ∈ as, P a :=
  hp.bind fun _ ha => (Yields.after fun _ => hp).many.bind fun _ hmore =>
    yields_pure (List.forall_mem_cons.mpr ⟨ha, hmore⟩)

end Scanner

/-! ### What the parts of a text write -/

open Scanner

theorem yields_ofInt (n : Int) : (ofInt n).Yields Value.Proper := by
  unfold ofInt
  split_ifs with h
  · exact yields_pure (.integer h.1 h.2)
  · exact yields_failure

theorem yields_basedInteger (letter : Char) (base : Nat) :
    (basedInteger letter base).Yields Value.Proper :=
  .after fun _ => .after fun _ => yields_ofInt _

theorem yields_integer : integer.Yields Value.Proper :=
  (yields_basedInteger _ _).orElse <| (yields_basedInteger _ _).orElse <|
    (yields_basedInteger _ _).orElse <| .after fun _ => .after fun _ => yields_ofInt _

theorem yields_decimal : decimal.Yields Value.Proper := by
  have hfinite : ∀ x : Binary64, Yields
      (if x = .infinite false then failure else return .float x) Value.Proper := by
    intro x
    split_ifs
    · exact yields_failure
    · exact yields_pure (.float x)
  refine .after fun negative => .after fun whole => .after fun after? => .after fun power? => ?_
  dsimp only
  split
  · exact .after fun _ => hfinite _
  · exact hfinite _

theorem yields_float : float.Yields Value.Proper :=
  yields_decimal.orElse <| .after fun _ =>
    Yields.orElse (.after fun _ => yields_pure (.float _)) (.after fun _ => yields_pure (.float _))

theorem yields_moment : moment.Yields Value.Proper := by
  refine Yields.orElse ?_ ?_
  · exact .after fun _ => .after fun _ => yields_pure .moment
  · exact .after fun _ => yields_pure .moment

theorem yields_scalar : scalar.Yields Value.Proper := by
  unfold scalar numeric
  refine Yields.orElse ?_ (Yields.orElse ?_ (Yields.orElse ?_ ?_))
  · exact .after fun _ => yields_pure (.string _)
  · exact yields_moment.orElse (yields_float.orElse yields_integer)
  · exact .after fun _ => yields_pure (.boolean _)
  · exact .after fun _ => yields_pure (.boolean _)

/-- A value under a key. -/
theorem yields_definition {value : Scanner Value} (hvalue : value.Yields Value.Proper) :
    (definition value).Yields fun d => d.2.2.Proper := by
  refine .after fun path => .after fun _ => .after fun _ => hvalue.bind fun v hv => ?_
  split
  · exact yields_pure hv
  · exact yields_failure

theorem yields_arrayRest {value : Scanner Value} (hvalue : value.Yields Value.Proper) :
    (arrayRest value).Yields Value.Proper := by
  refine .after fun _ => hvalue.optional.bind fun first hfirst => ?_
  cases first with
  | none => exact .after fun _ => yields_pure (.array (by simp))
  | some v =>
      have hitem : Yields (do gap; let _ ← char ','; gap; value) Value.Proper :=
        .after fun _ => .after fun _ => .after fun _ => hvalue
      refine hitem.many.bind fun more hmore => ?_
      refine .after fun _ => .after fun _ => .after fun _ => .after fun _ => yields_pure ?_
      exact .array (List.forall_mem_cons.mpr ⟨hfirst v rfl, hmore⟩)

/-- Definitions, one after the other, keep a table proper. -/
theorem Entries.Proper.foldlM_define {ds : List (List String × String × Value)}
    {es es' : Entries} (h : es.Proper) (hds : ∀ d ∈ ds, d.2.2.Proper)
    (hd : ds.foldlM (fun es d => Entries.define es d.1 d.2.1 d.2.2) es = some es') :
    es'.Proper := by
  induction ds generalizing es with
  | nil =>
      cases hd
      exact h
  | cons d ds ih =>
      rw [List.foldlM_cons] at hd
      obtain ⟨hd₁, hds⟩ := List.forall_mem_cons.mp hds
      obtain ⟨es₁, hes₁, hd⟩ := Option.bind_eq_some_iff.mp hd
      exact ih (h.define hd₁ hes₁) hds hd

theorem proper_inlineTable? {ds : List (List String × String × Value)} {v : Value}
    (hds : ∀ d ∈ ds, d.2.2.Proper) (h : inlineTable? ds = some v) : v.Proper := by
  obtain ⟨es, hes, rfl⟩ := Option.map_eq_some_iff.mp h
  exact Value.proper_table_iff.mpr (Entries.proper_nil.foldlM_define hds hes).toTable

theorem yields_inlineRest {value : Scanner Value} (hvalue : value.Yields Value.Proper) :
    (inlineRest value).Yields Value.Proper := by
  refine .after fun _ => ?_
  have hitem : Yields (do let d ← definition value; blanks; return d) fun d => d.2.2.Proper :=
    (yields_definition hvalue).bind fun d hd => .after fun _ => yields_pure hd
  refine hitem.separated.optional.bind fun ds? hds => .after fun _ => .after fun _ => ?_
  split
  · rename_i v hv
    refine yields_pure (proper_inlineTable? (fun d hd => ?_) hv)
    cases ds? with
    | none => cases hd
    | some ds => exact hds ds rfl d hd
  · exact yields_failure

theorem yields_value (depth : Nat) : (value depth).Yields Value.Proper := by
  induction depth with
  | zero => exact yields_scalar
  | succ depth ih =>
      refine .after fun next => ?_
      split
      · exact .after fun _ => yields_arrayRest ih
      · exact .after fun _ => yields_inlineRest ih
      · exact yields_scalar

/-- A line whose value is proper, if it has one. -/
def Line.Proper : Line → Prop
  | .definition _ _ v => v.Proper
  | _ => True

theorem yields_line : line.Yields Line.Proper := by
  refine .after fun _ => .after fun next => ?_
  split
  · refine Yields.bind (P := Line.Proper) (Yields.orElse ?_ ?_) fun l hl =>
      .after fun _ => yields_pure hl
    · exact .after fun _ => .after fun _ => .after fun _ => yields_pure trivial
    · exact .after fun _ => .after fun _ => .after fun _ => yields_pure trivial
  · exact .after fun _ => yields_pure trivial
  · exact .after fun _ => yields_pure trivial
  · exact .after fun _ => yields_pure trivial
  · exact .after fun _ => yields_pure trivial
  · exact (yields_definition (yields_value maxDepth)).bind fun d hd =>
      .after fun _ => yields_pure hd

/-! ### What a text writes -/

/-- A draft whose tables can be put together: what is being added to is proper, and so is the
document with any proper table in its place. -/
structure Draft.Proper (d : Draft) : Prop where
  current : d.current.Proper
  close : ∀ contents es, contents.Proper → { d with current := contents }.close = some es →
    es.Proper

theorem Draft.proper_start : Draft.start.Proper := by
  refine ⟨Entries.proper_nil, fun contents es hcontents h => ?_⟩
  cases h
  exact hcontents

/-- A line more. -/
theorem Draft.Proper.add {d d' : Draft} {l : Line} (h : d.Proper) (hl : l.Proper)
    (hd : d.add l = some d') : d'.Proper := by
  have hclose : ∀ es, d.close = some es → es.Proper := fun es => h.close d.current es h.current
  cases l with
  | empty =>
      cases hd
      exact h
  | definition path last v =>
      obtain ⟨current, hcurrent, hd⟩ := Option.bind_eq_some_iff.mp hd
      cases hd
      exact ⟨h.current.define hl hcurrent, h.close⟩
  | header path =>
      obtain ⟨key, -, hd⟩ := Option.bind_eq_some_iff.mp hd
      obtain ⟨es, hes, hd⟩ := Option.bind_eq_some_iff.mp hd
      obtain ⟨⟨closed, current⟩, hopen, hd⟩ := Option.bind_eq_some_iff.mp hd
      cases hd
      obtain ⟨hcurrent, hback⟩ := (hclose es hes).openTable hopen
      exact ⟨hcurrent, hback⟩
  | element path =>
      obtain ⟨key, -, hd⟩ := Option.bind_eq_some_iff.mp hd
      obtain ⟨es, hes, hd⟩ := Option.bind_eq_some_iff.mp hd
      obtain ⟨closed, hopen, hd⟩ := Option.bind_eq_some_iff.mp hd
      cases hd
      have hclosed := (hclose es hes).openElement hopen
      exact ⟨Entries.proper_nil, fun contents es => hclosed.closeElement⟩

theorem yields_lines (n : Nat) {d : Draft} (h : d.Proper) : (lines n d).Yields Draft.Proper := by
  induction n generalizing d with
  | zero => exact .after fun _ => yields_pure h
  | succ n ih =>
      intro text d' rest hd
      unfold lines at hd
      split_ifs at hd
      · cases hd
        exact h
      · refine yields_line.bind (fun l hl => ?_) text d' rest hd
        split
        · rename_i d'' hadd
          exact ih (h.add hl hadd)
        · exact yields_failure

/-- Whatever is read from a text is a proper document. -/
theorem proper_of_parse? {text : String} {document : Table} (h : parse? text = some document) :
    document.Proper := by
  unfold parse? at h
  dsimp only at h
  split at h
  · rename_i d rest hd
    obtain ⟨es, hes, rfl⟩ := Option.map_eq_some_iff.mp h
    have hd := yields_lines _ Draft.proper_start _ _ _ hd
    exact (hd.close d.current es hd.current hes).toTable
  · cases h

end Socks.Toml
