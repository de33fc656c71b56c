import FlagGovernance.Json.Basic
import FlagGovernance.Proofs.Lookup
import FlagGovernance.Proofs.Number.Finite
/-
What a document can hold, and what putting its members in order does to it.

Numbers keep to sixty-four bits and the members of an object stand by increasing
key.  Such a document is in order already; of any other, ordering keeps what is found
under each key.
-/

namespace FlagGovernance

/-- What sixty-four bits hold: an integer with or without a sign, or a finite
real. -/
def Number.WellFormed : Number → Prop
  | .integer i => -0x8000000000000000 ≤ i ∧ i < 0x10000000000000000
  | .real d => d.isFinite = true

instance : DecidablePred Number.WellFormed
  | .integer i => inferInstanceAs (Decidable (-0x8000000000000000 ≤ i ∧ i < 0x10000000000000000))
  | .real d => inferInstanceAs (Decidable (d.isFinite = true))

theorem Number.isFinite_toDouble {n : Number} (hn : n.WellFormed) : n.toDouble.isFinite = true := by
  cases n with
  | integer i =>
      obtain ⟨hlow, hhigh⟩ := hn
      exact Double.isFinite_whole (by omega) _
  | real d => exact hn

namespace Json

open OrderedMap

/-- A document as text can give it: its numbers keep to sixty-four bits, and the
members of each object stand by increasing key. -/
inductive WellFormed : Json → Prop
  | null : WellFormed .null
  | bool (b : Bool) : WellFormed (.bool b)
  | number {n : Number} (hn : n.WellFormed) : WellFormed (.number n)
  | string (s : String) : WellFormed (.string s)
  | array {items : List Json} (hitems : ∀ v ∈ items, WellFormed v) : WellFormed (.array items)
  | object {members : List (String × Json)} (hordered : Ascending members)
      (hmembers : ∀ m ∈ members, WellFormed m.2) : WellFormed (.object members)

mutual

def isWellFormed : Json → Bool
  | .number n => decide n.WellFormed
  | .array items => itemsWellFormed items
  | .object members => decide (Ascending members) && membersWellFormed members
  | _ => true

def itemsWellFormed : List Json → Bool
  | [] => true
  | v :: rest => isWellFormed v && itemsWellFormed rest

def membersWellFormed : List (String × Json) → Bool
  | [] => true
  | (_, v) :: rest => isWellFormed v && membersWellFormed rest

end

mutual

theorem wellFormed_of_isWellFormed (v : Json) (hv : v.isWellFormed = true) : v.WellFormed := by
  cases v with
  | null => exact .null
  | bool b => exact .bool b
  | number n => exact .number (of_decide_eq_true hv)
  | string s => exact .string s
  | array items => exact .array (wellFormed_of_itemsWellFormed items hv)
  | object members =>
      obtain ⟨hordered, hmembers⟩ := Bool.and_eq_true_iff.1 hv
      exact .object (of_decide_eq_true hordered) (wellFormed_of_membersWellFormed members hmembers)

theorem wellFormed_of_itemsWellFormed (items : List Json) (hitems : itemsWellFormed items = true) :
    ∀ v ∈ items, v.WellFormed := by
  cases items with
  | nil => exact List.forall_mem_nil _
  | cons v rest =>
      obtain ⟨hv, hrest⟩ := Bool.and_eq_true_iff.1 hitems
      exact List.forall_mem_cons.2 ⟨wellFormed_of_isWellFormed v hv,
        wellFormed_of_itemsWellFormed rest hrest⟩

theorem wellFormed_of_membersWellFormed (members : List (String × Json))
    (hmembers : membersWellFormed members = true) : ∀ m ∈ members, m.2.WellFormed := by
  match members with
  | [] => exact List.forall_mem_nil _
  | (_, v) :: rest =>
      obtain ⟨hv, hrest⟩ := Bool.and_eq_true_iff.1 hmembers
      exact List.forall_mem_cons.2 ⟨wellFormed_of_isWellFormed v hv,
        wellFormed_of_membersWellFormed rest hrest⟩

end

theorem itemsWellFormed_of_forall {items : List Json} (hitems : ∀ v ∈ items, v.isWellFormed = true) :
    itemsWellFormed items = true := by
  induction items with
  | nil => rfl
  | cons v rest ih =>
      rw [List.forall_mem_cons] at hitems
      exact Bool.and_eq_true_iff.2 ⟨hitems.1, ih hitems.2⟩

theorem membersWellFormed_of_forall {members : List (String × Json)}
    (hmembers : ∀ m ∈ members, m.2.isWellFormed = true) : membersWellFormed members = true := by
  induction members with
  | nil => rfl
  | cons m rest ih =>
      rw [List.forall_mem_cons] at hmembers
      exact Bool.and_eq_true_iff.2 ⟨hmembers.1, ih hmembers.2⟩

theorem isWellFormed_of_wellFormed {v : Json} (hv : v.WellFormed) : v.isWellFormed = true := by
  induction hv with
  | null | bool | string => rfl
  | number hn => exact decide_eq_true hn
  | array _ ih => exact itemsWellFormed_of_forall ih
  | object hordered _ ih =>
      exact Bool.and_eq_true_iff.2 ⟨decide_eq_true hordered, membersWellFormed_of_forall ih⟩

instance (v : Json) : Decidable v.WellFormed :=
  decidable_of_iff (v.isWellFormed = true)
    ⟨wellFormed_of_isWellFormed v, isWellFormed_of_wellFormed⟩

@[simp] theorem member?_nil (key : String) : member? key [] = none := rfl

@[simp] theorem member?_cons (key : String) (m : String × Json) (rest : List (String × Json)) :
    member? key (m :: rest) = if key = m.1 then some m.2 else member? key rest := rfl

@[simp] theorem member?_append (key : String) (first second : List (String × Json)) :
    member? key (first ++ second) = (member? key first).or (member? key second) := by
  induction first with
  | nil => rfl
  | cons m rest ih =>
      rw [List.cons_append, member?_cons, member?_cons]
      split
      · rfl
      · exact ih

theorem member?_eq_findEntry (key : String) (members : List (String × Json)) :
    member? key members = findEntry? key members := by
  induction members with
  | nil => rfl
  | cons m rest ih =>
      obtain ⟨first, v⟩ := m
      by_cases hfirst : key = first
      · subst hfirst
        rw [member?, if_pos rfl, findEntry?_cons_self]
      · rw [member?, if_neg hfirst, findEntry?_cons_of_ne hfirst, ih]

theorem member?_ne_none_of_mem {m : String × Json} {ms : List (String × Json)}
    (hmem : m ∈ ms) : member? m.1 ms ≠ none := by
  rw [member?_eq_findEntry]
  exact fun hnone => (OrderedMap.findEntry?_eq_none_iff _ _).1 hnone (List.mem_map_of_mem hmem)

/-- The only member whose key passes is the one that is found. -/
theorem find?_of_member? {p : String → Bool} {key : String} {v : Json}
    {ms : List (String × Json)} (hmember : member? key ms = some v) (hkey : p key = true)
    (honly : ∀ m ∈ ms, p m.1 = true → m.1 = key) :
    ms.find? (fun m => p m.1) = some (key, v) := by
  induction ms with
  | nil => contradiction
  | cons m rest ih =>
      rw [List.forall_mem_cons] at honly
      rw [member?_cons] at hmember
      by_cases hfirst : key = m.1
      · rw [if_pos hfirst] at hmember
        subst hfirst
        rw [← Option.some.inj hmember]
        exact List.find?_cons_of_pos hkey
      · rw [if_neg hfirst] at hmember
        have hpast : ¬ p m.1 = true := fun hpass => hfirst (honly.1 hpass).symm
        rw [← ih hmember honly.2]
        exact List.find?_cons_of_neg hpast

theorem member?_setMember (members : List (String × Json)) (key key' : String) (value : Json) :
    member? key' (setMember members key value) =
      if key' = key then some value else member? key' members := by
  rw [setMember, member?_eq_findEntry]
  split
  · next heq => rw [heq, findEntry?_insertEntry_self]
  · next hne => rw [findEntry?_insertEntry_of_ne hne, member?_eq_findEntry]

/-- Of members set one after the other the last of a key holds, and where none was set
what was there before. -/
theorem member?_setMembers (members extra : List (String × Json)) (key : String) :
    member? key (extra.foldl (fun ms m => setMember ms m.1 m.2) members) =
      (member? key extra.reverse).or (member? key members) := by
  induction extra generalizing members with
  | nil => rfl
  | cons m rest ih =>
      rw [List.foldl_cons, ih, member?_setMember, List.reverse_cons, member?_append, Option.or_assoc,
        member?_cons, member?_nil]
      congr 1
      split <;> rfl

theorem sortedItems_eq_map (items : List Json) : sortedItems items = items.map sorted := by
  induction items with
  | nil => rfl
  | cons v rest ih => rw [sortedItems, List.map_cons, ih]

/-- Ordering members keeps what stands first under each key. -/
theorem member?_sortedMembers (key : String) (members : List (String × Json)) :
    member? key (sortedMembers members) = (member? key members).map sorted := by
  induction members with
  | nil => rfl
  | cons m rest ih =>
      obtain ⟨first, v⟩ := m
      rw [sortedMembers, member?_setMember, member?]
      by_cases hfirst : key = first
      · rw [if_pos hfirst, if_pos hfirst]
        rfl
      · rw [if_neg hfirst, if_neg hfirst, ih]

theorem insertEntry_of_ascending {α : Type} {key : String} {v : α} {entries : List (String × α)}
    (hordered : Ascending ((key, v) :: entries)) :
    insertEntry key v entries = (key, v) :: entries := by
  cases entries with
  | nil => rfl
  | cons entry rest =>
      have hlt := (List.pairwise_cons.1 hordered).1 entry List.mem_cons_self
      simp only [insertEntry, hlt]

/-- Members that are in order stay where they are. -/
theorem sortedMembers_of_ascending {members : List (String × Json)}
    (hordered : Ascending members) :
    sortedMembers members = members.map (fun m => (m.1, m.2.sorted)) := by
  induction members with
  | nil => rfl
  | cons m rest ih =>
      rw [sortedMembers, ih (List.pairwise_cons.1 hordered).2, setMember, List.map_cons]
      exact insertEntry_of_ascending (List.pairwise_map (l := m :: rest)
        (f := fun m : String × Json => (m.1, m.2.sorted)) |>.2 hordered)

/-- A document as text can give it is in order. -/
theorem sorted_of_wellFormed {v : Json} (hv : v.WellFormed) : v.sorted = v := by
  induction hv with
  | null | bool | number | string => rfl
  | array _ ih =>
      rw [sorted, sortedItems_eq_map, List.map_congr_left ih, List.map_id']
  | @object members hordered _ ih =>
      have hsame : ∀ m ∈ members, (m.1, m.2.sorted) = id m := by
        intro m hmem
        rw [ih m hmem]
        rfl
      rw [sorted, sortedMembers_of_ascending hordered, List.map_congr_left hsame, List.map_id]

end Json

end FlagGovernance
