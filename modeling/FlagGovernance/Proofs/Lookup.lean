import FlagGovernance.OrderedMap
/-
Looking up in ordered maps.

An insertion is seen at its own key and nowhere else, and so is a removal.  These
laws hold of every list of entries, ordered or not.  What needs the order is that
a key has one entry: the entries of a map are then just what is found in it.
-/

namespace FlagGovernance

namespace OrderedMap

variable {κ α : Type} [Ord κ]

theorem contains_eq_false_iff (m : OrderedMap κ α) (k : κ) :
    m.contains k = false ↔ m.find? k = none := by
  simp [contains]

theorem isEmpty_iff_keys (m : OrderedMap κ α) : m.isEmpty = true ↔ m.keys = [] := by
  rw [isEmpty, keys, List.isEmpty_iff, List.map_eq_nil_iff]

variable [Std.LawfulEqOrd κ]

theorem findEntry?_cons_self (k : κ) (v : α) (rest : List (κ × α)) :
    findEntry? k ((k, v) :: rest) = some v := by
  simp [Std.ReflOrd.compare_self, findEntry?]

theorem findEntry?_cons_of_ne {k k' : κ} (hne : k ≠ k') (v : α)
    (rest : List (κ × α)) : findEntry? k ((k', v) :: rest) = findEntry? k rest := by
  have hcompare : compare k k' ≠ .eq := fun heq => hne (Std.LawfulEqOrd.eq_of_compare heq)
  cases horder : compare k k' with
  | eq => contradiction
  | lt | gt => simp [horder, findEntry?]

theorem findEntry?_insertEntry_self (k : κ) (v : α) (entries : List (κ × α)) :
    findEntry? k (insertEntry k v entries) = some v := by
  induction entries with
  | nil => exact findEntry?_cons_self k v []
  | cons entry rest ih =>
      obtain ⟨k', v'⟩ := entry
      simp only [insertEntry]
      split
      · exact findEntry?_cons_self k v _
      · exact findEntry?_cons_self k v _
      · next hgt =>
        have hne : k ≠ k' := by
          rintro rfl
          simp [Std.ReflOrd.compare_self] at hgt
        rw [findEntry?_cons_of_ne hne]
        exact ih

theorem findEntry?_insertEntry_of_ne {k k' : κ} (hne : k' ≠ k) (v : α)
    (entries : List (κ × α)) :
    findEntry? k' (insertEntry k v entries) = findEntry? k' entries := by
  induction entries with
  | nil => exact findEntry?_cons_of_ne hne v []
  | cons entry rest ih =>
      obtain ⟨first, v'⟩ := entry
      simp only [insertEntry]
      split
      · exact findEntry?_cons_of_ne hne v _
      · next heq =>
        obtain rfl : k = first := Std.LawfulEqOrd.eq_of_compare heq
        rw [findEntry?_cons_of_ne hne, findEntry?_cons_of_ne hne]
      · by_cases hfirst : k' = first
        · subst hfirst
          rw [findEntry?_cons_self, findEntry?_cons_self]
        · rw [findEntry?_cons_of_ne hfirst, findEntry?_cons_of_ne hfirst]
          exact ih

/-- A filter that keeps every entry of a key does not change what is found
there. -/
theorem findEntry?_filter {k : κ} {keeps : κ × α → Bool} (hkeeps : ∀ v, keeps (k, v) = true)
    (entries : List (κ × α)) :
    findEntry? k (entries.filter keeps) = findEntry? k entries := by
  induction entries with
  | nil => rfl
  | cons entry rest ih =>
      obtain ⟨first, v⟩ := entry
      by_cases hfirst : k = first
      · subst hfirst
        rw [List.filter_cons_of_pos (hkeeps v), findEntry?_cons_self, findEntry?_cons_self]
      · rw [findEntry?_cons_of_ne hfirst, ← ih, List.filter_cons]
        split
        · exact findEntry?_cons_of_ne hfirst v _
        · rfl

theorem findEntry?_eq_none_of_forall_ne {k : κ} {entries : List (κ × α)}
    (hne : ∀ entry ∈ entries, k ≠ entry.1) : findEntry? k entries = none := by
  induction entries with
  | nil => rfl
  | cons entry rest ih =>
      obtain ⟨first, v⟩ := entry
      rw [List.forall_mem_cons] at hne
      rw [findEntry?_cons_of_ne hne.1]
      exact ih hne.2

@[simp] theorem find?_erase_self (m : OrderedMap κ α) (k : κ) : (m.erase k).find? k = none := by
  apply findEntry?_eq_none_of_forall_ne
  rintro entry hentry rfl
  simp [erase, Std.ReflOrd.compare_self] at hentry

theorem find?_erase_of_ne (m : OrderedMap κ α) {k k' : κ} (hne : k' ≠ k) :
    (m.erase k).find? k' = m.find? k' := by
  apply findEntry?_filter
  intro v
  have hcompare : compare k k' ≠ .eq := fun heq => hne (Std.LawfulEqOrd.eq_of_compare heq).symm
  simpa using hcompare

theorem findEntry?_eq_none_iff (k : κ) (entries : List (κ × α)) :
    findEntry? k entries = none ↔ k ∉ entries.map Prod.fst := by
  constructor
  · intro hnone hmem
    induction entries with
    | nil => contradiction
    | cons entry rest ih =>
        obtain ⟨first, v⟩ := entry
        by_cases hfirst : k = first
        · subst hfirst
          rw [findEntry?_cons_self] at hnone
          contradiction
        · rw [findEntry?_cons_of_ne hfirst] at hnone
          exact ih hnone (List.mem_of_ne_of_mem hfirst hmem)
  · intro hnotMem
    apply findEntry?_eq_none_of_forall_ne
    rintro entry hentry rfl
    exact hnotMem (List.mem_map_of_mem hentry)

theorem contains_iff_mem_keys (m : OrderedMap κ α) (k : κ) :
    m.contains k = true ↔ k ∈ m.keys := by
  rw [contains, Option.isSome_iff_ne_none, ne_eq, find?, findEntry?_eq_none_iff, Classical.not_not]
  rfl

/-- Entries in a row, each key before all that follow. -/
abbrev Ascending (entries : List (κ × α)) : Prop :=
  entries.Pairwise (fun a b => compare a.1 b.1 = .lt)

theorem ne_of_ascending {entry : κ × α} {rest : List (κ × α)}
    (hordered : Ascending (entry :: rest)) {later : κ × α} (hmem : later ∈ rest) :
    later.1 ≠ entry.1 := by
  intro heq
  have hlt := (List.pairwise_cons.1 hordered).1 later hmem
  rw [heq, Std.ReflOrd.compare_self] at hlt
  contradiction

theorem mem_iff_of_ascending {k : κ} {v : α} {entries : List (κ × α)}
    (hordered : Ascending entries) : (k, v) ∈ entries ↔ findEntry? k entries = some v := by
  induction entries with
  | nil => exact iff_of_false List.not_mem_nil nofun
  | cons entry rest ih =>
      obtain ⟨first, v'⟩ := entry
      by_cases hfirst : k = first
      · subst hfirst
        have hrest : (k, v) ∉ rest := fun hmem => ne_of_ascending hordered hmem rfl
        simp [findEntry?_cons_self, hrest, eq_comm]
      · rw [findEntry?_cons_of_ne hfirst, ← ih (List.pairwise_cons.1 hordered).2]
        simp [hfirst]

theorem mem_of_findEntry?_eq_some {k : κ} {v : α} {entries : List (κ × α)}
    (hfind : findEntry? k entries = some v) : (k, v) ∈ entries := by
  induction entries with
  | nil => contradiction
  | cons entry rest ih =>
      obtain ⟨first, v'⟩ := entry
      by_cases hfirst : k = first
      · subst hfirst
        rw [findEntry?_cons_self] at hfind
        rw [Option.some.inj hfind]
        exact List.mem_cons_self
      · rw [findEntry?_cons_of_ne hfirst] at hfind
        exact List.mem_cons_of_mem _ (ih hfind)

theorem mem_entries_iff {m : OrderedMap κ α} {k : κ} {v : α} :
    (k, v) ∈ m.entries ↔ m.find? k = some v :=
  mem_iff_of_ascending m.ordered

/-- No key is bound twice. -/
theorem keys_nodup (m : OrderedMap κ α) : m.keys.Nodup := by
  rw [keys, List.Nodup, List.pairwise_map]
  refine m.ordered.imp ?_
  intro entry entry' hlt heq
  rw [heq, Std.ReflOrd.compare_self] at hlt
  contradiction

/-- Maps that find the same are the same, for there is one order of their entries. -/
theorem ext_find? [Std.TransOrd κ] {m m' : OrderedMap κ α} (hfind : ∀ k, m.find? k = m'.find? k) :
    m = m' := by
  have hnodup (m : OrderedMap κ α) : m.entries.Nodup :=
    List.Pairwise.of_map Prod.fst (fun _ _ hne heq => hne (congrArg Prod.fst heq)) m.keys_nodup
  have hperm : m.entries.Perm m'.entries := by
    rw [List.perm_ext_iff_of_nodup (hnodup m) (hnodup m')]
    rintro ⟨k, v⟩
    rw [mem_entries_iff, mem_entries_iff, hfind]
  apply ext
  refine List.Perm.eq_of_pairwise ?_ m.ordered m'.ordered hperm
  intro entry entry' _ _ hlt hgt
  rw [Std.OrientedCmp.gt_of_lt hlt] at hgt
  contradiction

theorem mem_values_iff {m : OrderedMap κ α} {v : α} :
    v ∈ m.values ↔ ∃ k, m.find? k = some v := by
  simp [values, mem_entries_iff]

/-- Erasing a key that is not there changes nothing. -/
theorem erase_of_find?_eq_none {m : OrderedMap κ α} {k : κ} (hnone : m.find? k = none) :
    m.erase k = m := by
  apply ext
  rw [erase, List.filter_eq_self]
  rintro ⟨k', v⟩ hmem
  simp only [bne_iff_ne, ne_eq]
  intro heq
  obtain rfl : k = k' := Std.LawfulEqOrd.eq_of_compare heq
  rw [mem_entries_iff, hnone] at hmem
  contradiction

theorem filter_insertEntry (k : κ) (v : α) (entries : List (κ × α)) :
    (insertEntry k v entries).filter (fun e => compare k e.1 != .eq) =
      entries.filter (fun e => compare k e.1 != .eq) := by
  induction entries with
  | nil => simp [insertEntry, Std.ReflOrd.compare_self]
  | cons entry rest ih =>
      obtain ⟨first, v'⟩ := entry
      simp only [insertEntry]
      split
      · simp [Std.ReflOrd.compare_self]
      · next heq => simp [Std.ReflOrd.compare_self, heq]
      · next hgt => simp [hgt, ih]

variable [Std.TransOrd κ]

@[simp] theorem find?_insert_self (m : OrderedMap κ α) (k : κ) (v : α) :
    (m.insert k v).find? k = some v :=
  findEntry?_insertEntry_self k v m.entries

@[simp] theorem contains_insert_self (m : OrderedMap κ α) (k : κ) (v : α) :
    (m.insert k v).contains k = true := by
  rw [contains, find?_insert_self]
  rfl

theorem find?_insert_of_ne (m : OrderedMap κ α) {k k' : κ} (hne : k' ≠ k) (v : α) :
    (m.insert k v).find? k' = m.find? k' :=
  findEntry?_insertEntry_of_ne hne v m.entries

theorem find?_insert [DecidableEq κ] (m : OrderedMap κ α) (k k' : κ) (v : α) :
    (m.insert k v).find? k' = if k' = k then some v else m.find? k' := by
  split
  · next heq => rw [heq, find?_insert_self]
  · next hne => exact m.find?_insert_of_ne hne v

/-- Insertions under different keys, or of the same value, can be done in either order. -/
theorem insert_comm (m : OrderedMap κ α) {k k' : κ} {v v' : α} (happart : k = k' → v = v') :
    (m.insert k v).insert k' v' = (m.insert k' v').insert k v := by
  classical
  apply ext_find?
  intro k''
  simp only [find?_insert]
  by_cases hfirst : k'' = k
  · by_cases hsecond : k'' = k'
    · simp only [if_pos hfirst, if_pos hsecond, happart (hfirst ▸ hsecond)]
    · simp only [if_pos hfirst, if_neg hsecond]
  · simp only [if_neg hfirst]

/-- The values are the one found at a key and those left without the key. -/
theorem values_perm_of_find? {m : OrderedMap κ α} {k : κ} {v : α} (hfind : m.find? k = some v) :
    m.values.Perm (v :: (m.erase k).values) := by
  obtain ⟨before, after, hsplit⟩ := List.append_of_mem (mem_entries_iff.2 hfind)
  have hordered := m.ordered
  rw [hsplit, List.pairwise_append, List.pairwise_cons] at hordered
  have hbefore : before.filter (fun e => compare k e.1 != .eq) = before := by
    rw [List.filter_eq_self]
    intro e hmem
    have hlt := hordered.2.2 e hmem (k, v) (List.mem_cons_self)
    simp [Std.OrientedCmp.gt_of_lt hlt]
  have hafter : after.filter (fun e => compare k e.1 != .eq) = after := by
    rw [List.filter_eq_self]
    intro e hmem
    simp [hordered.2.1.1 e hmem]
  simp only [values, erase, hsplit, List.filter_append, hbefore,
    List.filter_cons, Std.ReflOrd.compare_self, hafter, bne_self_eq_false]
  simp

@[simp] theorem erase_insert_self (m : OrderedMap κ α) (k : κ) (v : α) :
    (m.insert k v).erase k = m.erase k :=
  ext (filter_insertEntry k v m.entries)

/-- After an insertion the values are the one inserted and those left without the
key. -/
theorem values_insert_perm (m : OrderedMap κ α) (k : κ) (v : α) :
    (m.insert k v).values.Perm (v :: (m.erase k).values) := by
  rw [← m.erase_insert_self k v]
  exact values_perm_of_find? (m.find?_insert_self k v)

theorem size_insert (m : OrderedMap κ α) (k : κ) (v : α) :
    (m.insert k v).size = (m.erase k).size + 1 := by
  have hlength := (m.values_insert_perm k v).length_eq
  simpa [values, size] using hlength

theorem size_eq_of_find? {m : OrderedMap κ α} {k : κ} {v : α} (hfind : m.find? k = some v) :
    m.size = (m.erase k).size + 1 := by
  have hlength := (values_perm_of_find? hfind).length_eq
  simpa [values, size] using hlength

/-- An insertion puts an entry over one or beside all. -/
theorem size_le_insert (m : OrderedMap κ α) (k : κ) (v : α) : m.size ≤ (m.insert k v).size := by
  rw [size_insert]
  cases hfind : m.find? k with
  | none =>
      rw [erase_of_find?_eq_none hfind]
      exact Nat.le_succ _
  | some old => exact Nat.le_of_eq (size_eq_of_find? hfind)

/-- An insertion counts for its value and no longer for the one that it replaces. -/
theorem countP_values_insert (m : OrderedMap κ α) (k : κ) (v : α) (p : α → Bool) :
    (m.insert k v).values.countP p + (m.find? k).toList.countP p =
      m.values.countP p + [v].countP p := by
  have herased : m.values.countP p = (m.erase k).values.countP p + (m.find? k).toList.countP p := by
    cases hfind : m.find? k with
    | none => rw [erase_of_find?_eq_none hfind]; rfl
    | some old =>
        rw [(values_perm_of_find? hfind).countP_eq, List.countP_cons, Option.toList_some,
          List.countP_singleton]
  rw [(m.values_insert_perm k v).countP_eq, herased, List.countP_cons, List.countP_singleton]
  omega

omit [Std.LawfulEqOrd κ] in
/-- An entry past all others goes to the end. -/
theorem insertEntry_of_last {k : κ} {v : α} {entries : List (κ × α)}
    (hlast : ∀ e ∈ entries, compare e.1 k = .lt) :
    insertEntry k v entries = entries ++ [(k, v)] := by
  induction entries with
  | nil => rfl
  | cons entry rest ih =>
      obtain ⟨first, v'⟩ := entry
      rw [List.forall_mem_cons] at hlast
      have hgt : compare k first = .gt := Std.OrientedCmp.gt_of_lt hlast.1
      simp only [insertEntry, hgt, ih hlast.2, List.cons_append]

theorem entries_foldl_insert (m : OrderedMap κ α) {entries : List (κ × α)}
    (hordered : Ascending (m.entries ++ entries)) :
    (entries.foldl (fun m e => m.insert e.1 e.2) m).entries = m.entries ++ entries := by
  induction entries generalizing m with
  | nil => rw [List.foldl_nil, List.append_nil]
  | cons entry rest ih =>
      have hlast : (m.insert entry.1 entry.2).entries = m.entries ++ [entry] := by
        apply insertEntry_of_last
        intro e hmem
        exact (List.pairwise_append.1 hordered).2.2 e hmem entry List.mem_cons_self
      rw [List.append_cons] at hordered
      rw [List.foldl_cons, ih _ (hlast ▸ hordered), hlast, List.append_assoc, List.singleton_append]

/-- A map is the map of its entries. -/
theorem ofList_entries (m : OrderedMap κ α) : ofList m.entries = m :=
  ext (entries_foldl_insert empty m.ordered)

end OrderedMap

end FlagGovernance
