import FlagGovernance.Proofs.Diff.Places
/-
Chains of keys as texts.

A path is the keys with points between them.  If no key is empty or has a point in it,
the keys can be read off the path again; the one path that is no chain is `$`, which
stands for the whole document.
-/

namespace FlagGovernance

namespace Json

mutual

/-- Every key of every object in a document, at any depth. -/
def allKeys : Json → List String
  | .array items => itemKeys items
  | .object members => memberKeys members
  | _ => []

def itemKeys : List Json → List String
  | [] => []
  | v :: rest => allKeys v ++ itemKeys rest

def memberKeys : List (String × Json) → List String
  | [] => []
  | (key, v) :: rest => key :: (allKeys v ++ memberKeys rest)

end

theorem mem_memberKeys {key : String} {ms : List (String × Json)} :
    key ∈ memberKeys ms ↔ ∃ m ∈ ms, key = m.1 ∨ key ∈ m.2.allKeys := by
  induction ms with
  | nil => simp [memberKeys]
  | cons m rest ih =>
      obtain ⟨first, v⟩ := m
      simp [memberKeys, ih, or_assoc]

theorem mem_allKeys_of_member? {ms : List (String × Json)} {key inner : String} {v : Json}
    (hv : v ∈ member? key ms) (hinner : inner = key ∨ inner ∈ v.allKeys) :
    inner ∈ (Json.object ms).allKeys := by
  rw [Option.mem_def, member?_eq_findEntry] at hv
  exact mem_memberKeys.mpr ⟨(key, v), OrderedMap.mem_of_findEntry?_eq_some hv, hinner⟩

/-- What holds of all keys of two documents holds of those on the way to a place where
they part. -/
theorem PartAt.forall_keys {P : String → Prop} {keys : List String} {before after : Option Json}
    (hpart : PartAt keys before after) (hbefore : ∀ v ∈ before, ∀ key ∈ v.allKeys, P key)
    (hafter : ∀ v ∈ after, ∀ key ∈ v.allKeys, P key) : ∀ key ∈ keys, P key := by
  induction keys generalizing before after with
  | nil => simp
  | cons key keys ih =>
      obtain ⟨as, bs, rfl, rfl, hrest⟩ := partAt_cons_iff.mp hpart
      have hwithin := ih hrest
        (fun v hv inner hin => hbefore _ rfl inner (mem_allKeys_of_member? hv (Or.inr hin)))
        (fun v hv inner hin => hafter _ rfl inner (mem_allKeys_of_member? hv (Or.inr hin)))
      rw [List.forall_mem_cons]
      refine ⟨?_, hwithin⟩
      cases hold : member? key as with
      | some v => exact hbefore _ rfl key (mem_allKeys_of_member? hold (Or.inl rfl))
      | none =>
          cases hnew : member? key bs with
          | some v => exact hafter _ rfl key (mem_allKeys_of_member? hnew (Or.inl rfl))
          | none =>
              rw [hold, hnew] at hrest
              exact absurd hrest (not_partAt_none keys)

end Json

namespace Diff

/-- The path that is told for a chain of keys. -/
def pathOf (keys : List String) : String := shownPath (keys.foldl childPath "")

/-- The chain of keys that a path tells; `$` is the whole document. -/
def keysOf (path : String) : List String :=
  if path = "$" then [] else (path.toList.splitOn '.').map String.ofList

/-- The key can be told apart from those beside it on a path. -/
def Separable (key : String) : Prop := key ≠ "" ∧ '.' ∉ key.toList

instance : DecidablePred Separable := fun key =>
  inferInstanceAs (Decidable (key ≠ "" ∧ '.' ∉ key.toList))

/-- The key can be read off a path that it stands on, even alone. -/
def Plain (key : String) : Prop := Separable key ∧ key ≠ "$"

instance : DecidablePred Plain := fun key =>
  inferInstanceAs (Decidable (Separable key ∧ key ≠ "$"))

theorem toList_foldl_childPath {path : String} (hpath : path ≠ "") (keys : List String) :
    (keys.foldl childPath path).toList =
      path.toList ++ keys.flatMap (fun key => '.' :: key.toList) := by
  induction keys generalizing path with
  | nil => simp
  | cons key keys ih =>
      have hchild : childPath path key = path ++ "." ++ key := by
        rw [childPath, if_neg (by simpa using hpath)]
      have hlonger : childPath path key ≠ "" := by
        rw [hchild]
        simp
      rw [List.foldl_cons, ih hlonger, hchild]
      simp

/-- The characters of a path that starts with a key. -/
theorem toList_pathOf {key : String} (hkey : key ≠ "") (keys : List String) :
    (pathOf (key :: keys)).toList = key.toList ++ keys.flatMap (fun key => '.' :: key.toList) := by
  have hpath := toList_foldl_childPath hkey keys
  have hne : keys.foldl childPath key ≠ "" := by
    intro hempty
    rw [hempty] at hpath
    simp [hkey] at hpath
  have hshown : pathOf (key :: keys) = keys.foldl childPath key := by
    have hfirst : childPath "" key = key := rfl
    rw [pathOf, List.foldl_cons, hfirst, shownPath, if_neg (by simpa using hne)]
  rw [hshown, hpath]

theorem toList_pathOf_eq_intercalate {key : String} (hkey : key ≠ "") (keys : List String) :
    (pathOf (key :: keys)).toList = ['.'].intercalate ((key :: keys).map String.toList) := by
  rw [toList_pathOf hkey]
  clear hkey
  induction keys generalizing key with
  | nil => simp
  | cons next keys ih =>
      rw [List.flatMap_cons, List.map_cons, List.map_cons, List.intercalate_cons_cons,
        ← List.map_cons, ← ih]
      simp

/-- The keys are read off the path that is told for them. -/
theorem keysOf_pathOf {keys : List String} (hkeys : ∀ key ∈ keys, Plain key) :
    keysOf (pathOf keys) = keys := by
  cases keys with
  | nil => rfl
  | cons key keys =>
      obtain ⟨⟨hkey, _⟩, hwhole⟩ := hkeys key List.mem_cons_self
      have hpath : pathOf (key :: keys) ≠ "$" := by
        intro heq
        have hchars := (toList_pathOf hkey keys).symm.trans (congrArg String.toList heq)
        rcases List.append_eq_singleton_iff.mp hchars with ⟨hfirst, _⟩ | ⟨hfirst, _⟩
        · exact hkey (String.toList_eq_nil_iff.mp hfirst)
        · exact hwhole (String.toList_inj.mp hfirst)
      rw [keysOf, if_neg hpath, toList_pathOf_eq_intercalate hkey, List.splitOn_intercalate]
      · simp
      · simpa using fun key hmem => (hkeys key hmem).1.2
      · simp

end Diff

namespace Sample

theorem earlier_plain : ∀ v ∈ some earlier, ∀ key ∈ v.allKeys, Diff.Plain key := by
  rintro v ⟨⟩
  decide

theorem later_plain : ∀ v ∈ some later, ∀ key ∈ v.allKeys, Diff.Plain key := by
  rintro v ⟨⟩
  decide

end Sample

end FlagGovernance
