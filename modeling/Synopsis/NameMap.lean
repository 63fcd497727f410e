/-!
# Maps from names

A `NameMap α` maps names to values. It is held as the list of its entries in ascending order of
names, without repetition, so that two maps which answer every question alike are equal
(`NameMap.ext_get?`). Insertion replaces the value of a name that is already there.
-/

namespace Synopsis

/-- A finite map from names, as its entries in strictly ascending order of names. -/
structure NameMap (α : Type) where
  entries : List (String × α)
  sorted : entries.Pairwise fun a b => a.1 < b.1
deriving DecidableEq

namespace NameMap

variable {α : Type}

/-- The map without entries. -/
def empty : NameMap α := ⟨[], .nil⟩

instance : Inhabited (NameMap α) := ⟨empty⟩

/-- The first value listed for `name`. -/
def lookup (name : String) : List (String × α) → Option α
  | [] => none
  | (key, value) :: rest => if key = name then some value else lookup name rest

/-- The entries with `name` mapped to `value`, at its place in the order. -/
def place (name : String) (value : α) : List (String × α) → List (String × α)
  | [] => [(name, value)]
  | (key, old) :: rest =>
    if key < name then (key, old) :: place name value rest
    else if key = name then (name, value) :: rest
    else (name, value) :: (key, old) :: rest

theorem mem_place {name : String} {value : α} {l : List (String × α)} {e : String × α}
    (h : e ∈ place name value l) : e = (name, value) ∨ e ∈ l := by
  induction l with
  | nil => simpa [place] using h
  | cons d l ih =>
    obtain ⟨key, old⟩ := d
    simp only [place] at h
    split at h
    · rcases List.mem_cons.1 h with rfl | h
      · simp
      · rcases ih h with h | h <;> simp [h]
    · split at h
      · rcases List.mem_cons.1 h with rfl | h
        · simp
        · simp [h]
      · rcases List.mem_cons.1 h with rfl | h
        · simp
        · exact .inr h

theorem sorted_place {name : String} {value : α} {l : List (String × α)}
    (h : l.Pairwise fun a b => a.1 < b.1) :
    (place name value l).Pairwise fun a b => a.1 < b.1 := by
  induction l with
  | nil => simp [place]
  | cons d l ih =>
    obtain ⟨key, old⟩ := d
    obtain ⟨hd, hl⟩ := List.pairwise_cons.1 h
    simp only [place]
    split
    · next hlt =>
      refine List.pairwise_cons.2 ⟨fun e he => ?_, ih hl⟩
      rcases mem_place he with rfl | he
      · exact hlt
      · exact hd e he
    · split
      · next heq => subst heq; exact List.pairwise_cons.2 ⟨hd, hl⟩
      · next hnlt hne =>
        have hgt : name < key :=
          String.not_le.1 fun hle => hne (String.le_antisymm hle (String.not_lt.1 hnlt))
        refine List.pairwise_cons.2 ⟨fun e he => ?_, h⟩
        rcases List.mem_cons.1 he with rfl | he
        · exact hgt
        · exact String.lt_trans hgt (hd e he)

/-- The map with `name` mapped to `value`. -/
def insert (m : NameMap α) (name : String) (value : α) : NameMap α :=
  ⟨place name value m.entries, sorted_place m.sorted⟩

/-- The value of `name`, if it has one. -/
def get? (m : NameMap α) (name : String) : Option α := lookup name m.entries

/-- The map with every entry of the list inserted, from first to last. -/
def insertAll (m : NameMap α) (entries : List (String × α)) : NameMap α :=
  entries.foldl (fun m e => m.insert e.1 e.2) m

/-- The last value listed for `name`. -/
def last? (name : String) (entries : List (String × α)) : Option α :=
  lookup name entries.reverse

/-- Whether `name` has a value. -/
def contains (m : NameMap α) (name : String) : Bool := (m.get? name).isSome

/-- The names that have a value, in ascending order. -/
def names (m : NameMap α) : List String := m.entries.map Prod.fst

/-- The map with every value replaced by its image. -/
def map {β : Type} (f : α → β) (m : NameMap α) : NameMap β :=
  ⟨m.entries.map fun e => (e.1, f e.2), by
    rw [List.pairwise_map]
    exact m.sorted⟩

@[simp] theorem get?_empty (name : String) : (empty : NameMap α).get? name = none := rfl

theorem lookup_place (name : String) (value : α) (l : List (String × α)) (key : String)
    (h : l.Pairwise fun a b => a.1 < b.1) :
    lookup key (place name value l) = if name = key then some value else lookup key l := by
  induction l with
  | nil => simp [place, lookup]
  | cons d l ih =>
    obtain ⟨k, old⟩ := d
    have hl := (List.pairwise_cons.1 h).2
    simp only [place]
    split
    · next hlt =>
      have hne : k ≠ name := fun he => String.lt_irrefl name (he ▸ hlt)
      simp only [lookup, ih hl]
      by_cases hk : k = key
      · subst hk; simp [Ne.symm hne]
      · simp [hk]
    · split
      · next heq =>
        subst heq
        simp only [lookup]
        by_cases hk : k = key <;> simp [hk]
      · simp [lookup]

/-- Insertion changes the answer for its own name only. -/
@[simp] theorem get?_insert (m : NameMap α) (name : String) (value : α) (key : String) :
    (m.insert name value).get? key = if name = key then some value else m.get? key :=
  lookup_place name value m.entries key m.sorted

theorem lookup_append (name : String) (l k : List (String × α)) :
    lookup name (l ++ k) = (lookup name l).or (lookup name k) := by
  induction l with
  | nil => rfl
  | cons d l ih =>
    obtain ⟨key, value⟩ := d
    by_cases hk : key = name <;> simp [lookup, hk, ih]

@[simp] theorem last?_nil (name : String) : last? name ([] : List (String × α)) = none := rfl

theorem last?_append (name : String) (l k : List (String × α)) :
    last? name (l ++ k) = (last? name k).or (last? name l) := by
  rw [last?, List.reverse_append, lookup_append]
  rfl

theorem last?_cons (name : String) (e : String × α) (l : List (String × α)) :
    last? name (e :: l) = (last? name l).or (if e.1 = name then some e.2 else none) :=
  last?_append name [e] l

/-- What is listed last for a name stands in the list. -/
theorem mem_of_last? {name : String} {value : α} {l : List (String × α)}
    (h : last? name l = some value) : (name, value) ∈ l := by
  induction l with
  | nil => simp at h
  | cons e l ih =>
    rw [last?_cons, Option.or_eq_some_iff] at h
    rcases h with h | ⟨-, h⟩
    · exact List.mem_cons_of_mem _ (ih h)
    · split at h
      · next hk => cases h; subst hk; exact List.mem_cons_self
      · cases h

/-- A name that is not listed has no last value. -/
theorem last?_eq_none {name : String} {l : List (String × α)} (h : ∀ e ∈ l, e.1 ≠ name) :
    last? name l = none := by
  rw [Option.eq_none_iff_forall_ne_some]
  intro value hv
  exact h (name, value) (mem_of_last? hv) rfl

/-- A name that is listed has a last value. -/
theorem isSome_last? {name : String} {value : α} {l : List (String × α)}
    (h : (name, value) ∈ l) : (last? name l).isSome := by
  induction l with
  | nil => simp at h
  | cons e l ih =>
    rw [last?_cons]
    rcases List.mem_cons.1 h with rfl | h
    · simp
    · simp [ih h]

/-- After a list of insertions a name has the last value that is listed for it. -/
@[simp] theorem get?_insertAll (m : NameMap α) (entries : List (String × α)) (key : String) :
    (m.insertAll entries).get? key = (last? key entries).or (m.get? key) := by
  induction entries generalizing m with
  | nil => rfl
  | cons e entries ih =>
    rw [insertAll, List.foldl_cons, ← insertAll, ih, last?_cons, get?_insert]
    cases last? key entries with
    | some value => rfl
    | none => by_cases hk : e.1 = key <;> simp [hk]

theorem lookup_map {β : Type} (f : α → β) (l : List (String × α)) (key : String) :
    lookup key (l.map fun e => (e.1, f e.2)) = (lookup key l).map f := by
  induction l with
  | nil => rfl
  | cons d l ih =>
    obtain ⟨k, v⟩ := d
    by_cases hk : k = key <;> simp [lookup, hk, ih]

@[simp] theorem get?_map {β : Type} (f : α → β) (m : NameMap α) (key : String) :
    (m.map f).get? key = (m.get? key).map f :=
  lookup_map f m.entries key

theorem lookup_eq_none {l : List (String × α)} {key : String} (h : ∀ e ∈ l, key < e.1) :
    lookup key l = none := by
  induction l with
  | nil => rfl
  | cons d l ih =>
    obtain ⟨k, v⟩ := d
    have hk : k ≠ key := fun he =>
      String.lt_irrefl key (by simpa [he] using h (k, v) (by simp))
    simp [lookup, hk, ih fun e he => h e (by simp [he])]

/-- Among entries with different names, a name has the value that is listed for it. -/
theorem lookup_eq_some_iff {l : List (String × α)} (h : l.Pairwise fun a b => a.1 ≠ b.1)
    {name : String} {value : α} : lookup name l = some value ↔ (name, value) ∈ l := by
  induction l with
  | nil => simp [lookup]
  | cons d l ih =>
    obtain ⟨key, old⟩ := d
    obtain ⟨hd, hl⟩ := List.pairwise_cons.1 h
    rw [lookup]
    split
    · next hkey =>
      subst hkey
      have hnot : (key, value) ∉ l := fun hmem => hd _ hmem rfl
      simp [hnot, eq_comm]
    · next hkey => simp [ih hl, Ne.symm hkey]

theorem distinct_entries (m : NameMap α) : m.entries.Pairwise fun a b => a.1 ≠ b.1 := by
  refine m.sorted.imp fun {a b} hlt heq => ?_
  rw [heq] at hlt
  exact String.lt_irrefl b.1 hlt

theorem get?_eq_some_iff {m : NameMap α} {name : String} {value : α} :
    m.get? name = some value ↔ (name, value) ∈ m.entries :=
  lookup_eq_some_iff m.distinct_entries

/-- Two maps with the same answer for every name are equal. -/
theorem ext_get? {m n : NameMap α} (h : ∀ name, m.get? name = n.get? name) : m = n := by
  obtain ⟨l, hl⟩ := m
  obtain ⟨k, hk⟩ := n
  congr
  simp only [get?] at h
  induction l generalizing k with
  | nil =>
    cases k with
    | nil => rfl
    | cons e k => simpa [lookup] using h e.1
  | cons d l ih =>
    cases k with
    | nil => simpa [lookup] using h d.1
    | cons e k =>
      obtain ⟨dk, dv⟩ := d
      obtain ⟨ek, ev⟩ := e
      obtain ⟨hd, hl'⟩ := List.pairwise_cons.1 hl
      obtain ⟨he, hk'⟩ := List.pairwise_cons.1 hk
      have hkey : dk = ek := by
        by_cases hlt : dk < ek
        · have := h dk
          rw [lookup_eq_none (l := (ek, ev) :: k)] at this
          · simp [lookup] at this
          · intro x hx
            rcases List.mem_cons.1 hx with rfl | hx
            · exact hlt
            · exact String.lt_trans hlt (he x hx)
        · by_cases hgt : ek < dk
          · have := h ek
            rw [lookup_eq_none (l := (dk, dv) :: l)] at this
            · simp [lookup] at this
            · intro x hx
              rcases List.mem_cons.1 hx with rfl | hx
              · exact hgt
              · exact String.lt_trans hgt (hd x hx)
          · exact String.le_antisymm (String.not_lt.1 hgt) (String.not_lt.1 hlt)
      subst hkey
      have hval : dv = ev := by simpa [lookup] using h dk
      subst hval
      congr
      refine ih hl' k hk' fun name => ?_
      by_cases hn : dk = name
      · subst hn
        rw [lookup_eq_none hd, lookup_eq_none he]
      · simpa [lookup, hn] using h name

end NameMap

end Synopsis
