import FlagGovernance.Proofs.Decode.Laws
/-
The shapes of documents.

A shape says which documents have it and what of a document it knows.  A reader follows a
shape if it reads just the documents that have it, and reads a document as what is known of
it.  The law goes from the fields of a record to the record and from items to lists and maps.
-/

namespace FlagGovernance

variable {α β : Type}

/-- A shape: the documents that fit, and what is known of a document.  What is known of a
value that is not `null` is not either. -/
structure Shape where
  Fits : Json → Prop
  known : Json → Json
  known_ne_null : ∀ v, v ≠ .null → known v ≠ .null

/-- A field of a record.  An object may always leave it out. -/
structure FieldShape where
  key : String
  shape : Shape
  /-- An array may leave it out too. -/
  omissible : Bool

namespace Shape

/-- All of a document is known, if it fits. -/
def whole (fits : Json → Prop) : Shape := ⟨fits, id, fun _ hv => hv⟩

def any : Shape := whole (fun _ => True)

def text : Shape := whole (fun
  | .string _ => True
  | _ => False)

def number : Shape := whole (fun
  | .number _ => True
  | _ => False)

def switch : Shape := whole (fun
  | .bool _ => True
  | _ => False)

def nullable (s : Shape) : Shape where
  Fits v := v = .null ∨ s.Fits v
  known
    | .null => .null
    | v => s.known v
  known_ne_null v hv := by
    cases v with
    | null => contradiction
    | bool | number | string | array | object => exact s.known_ne_null _ hv

def list (s : Shape) : Shape where
  Fits
    | .array items => ∀ item ∈ items, s.Fits item
    | _ => False
  known
    | .array items => .array (items.map s.known)
    | v => v
  known_ne_null v hv := by
    cases v with
    | array => exact nofun
    | null | bool | number | string | object => exact hv

def map (s : Shape) : Shape where
  Fits
    | .object ms => ∀ m ∈ ms, s.Fits m.2
    | _ => False
  known
    | .object ms => .object (ms.map (fun m => (m.1, s.known m.2)))
    | v => v
  known_ne_null v hv := by
    cases v with
    | object => exact nofun
    | null | bool | number | string | array => exact hv

theorem nullable_known {s : Shape} {v : Json} (hv : v ≠ .null) :
    s.nullable.known v = s.known v := by
  cases v with
  | null => contradiction
  | bool | number | string | array | object => rfl

variable (fields : List FieldShape)

/-- What some fields know of members: those with a key of theirs. -/
def knownMembers (ms : List (String × Json)) : List (String × Json) :=
  ms.filterMap (fun m => (fields.find? (fun f => f.key == m.1)).map
    (fun f => (m.1, f.shape.known m.2)))

/-- What some fields know of items, each of that in its place. -/
def knownItems (items : List Json) : List Json :=
  items.mapIdx (fun i v => (fields[i]?.map (fun f => f.shape.known v)).getD v)

/-- The members with a key of some field have its shape. -/
def FitMembers (ms : List (String × Json)) : Prop :=
  ∀ f ∈ fields, ∀ v, Json.member? f.key ms = some v → f.shape.Fits v

/-- There is an item for each field that has to be there, with its shape, and no other. -/
structure FitItems (items : List Json) : Prop where
  shape : ∀ (i : Nat) (f : FieldShape) (v : Json),
    fields[i]? = some f → items[i]? = some v → f.shape.Fits v
  enough : ∀ (i : Nat) (f : FieldShape),
    fields[i]? = some f → items.length ≤ i → f.omissible = true
  length_le : items.length ≤ fields.length

/-- A record among the members of an object. -/
def object : Shape where
  Fits
    | .object ms => FitMembers fields ms
    | _ => False
  known
    | .object ms => .object (knownMembers fields ms)
    | v => v
  known_ne_null v hv := by
    cases v with
    | object => exact nofun
    | null | bool | number | string | array => exact hv

/-- A record, from an object or an array. -/
def record : Shape where
  Fits
    | .object ms => FitMembers fields ms
    | .array items => FitItems fields items
    | _ => False
  known
    | .object ms => .object (knownMembers fields ms)
    | .array items => .array (knownItems fields items)
    | v => v
  known_ne_null v hv := by
    cases v with
    | object | array => exact nofun
    | null | bool | number | string => exact hv

end Shape

namespace FieldShape

/-- A field with a value of its own when absent. -/
def defaulted (key : String) (s : Shape) : FieldShape := ⟨key, s, true⟩

/-- A field that may be `null`, and that an array has to have. -/
def nullable (key : String) (s : Shape) : FieldShape := ⟨key, s.nullable, false⟩

/-- The field may be missing in what fields are found in. -/
def MayLack (f : FieldShape) : FieldSource → Prop
  | .members _ => True
  | .items _ => f.omissible = true

/-- What is found for the field has its shape. -/
structure Admits (f : FieldShape) (s : FieldSource) (place : Nat) : Prop where
  found : ∀ v, s.get? f.key place = some v → f.shape.Fits v
  absent : s.get? f.key place = none → f.MayLack s

variable {f : FieldShape} {s : FieldSource} {place : Nat}

theorem admits_of_found {v : Json} (hget : s.get? f.key place = some v) :
    f.Admits s place ↔ f.shape.Fits v := by
  constructor
  · exact fun hadmits => hadmits.found v hget
  · intro hfits
    constructor
    · intro v' hget'
      exact Option.some.inj (hget.symm.trans hget') ▸ hfits
    · intro hnone
      exact absurd (hget.symm.trans hnone) (Option.some_ne_none v)

theorem admits_of_absent (hget : s.get? f.key place = none) :
    f.Admits s place ↔ f.MayLack s := by
  constructor
  · exact fun hadmits => hadmits.absent hget
  · intro hlacks
    constructor
    · intro v hfound
      exact absurd (hfound.symm.trans hget) (Option.some_ne_none v)
    · exact fun _ => hlacks

end FieldShape

/-- The two are members, or the two are items. -/
def FieldSource.SameKind : FieldSource → FieldSource → Prop
  | .members _, .members _ => True
  | .items _, .items _ => True
  | _, _ => False

/-- The document is read just if it has the shape, and as what is known of it. -/
structure Decode.Follows (d : Decoder α) (s : Shape) : Prop where
  answers : ∀ r v, (∃ a, d r v = .ok a) ↔ s.Fits v
  overlooks : ∀ r v, d r (s.known v) = d r v

/-- The record is read just if all its fields are found, and from what they know. -/
structure Record.Follows (x : Record α) (fields : List FieldShape) : Prop where
  arity : x.arity = fields.length
  answers : ∀ r s place, (∃ a, x.read r s place = .ok a) ↔
    ∀ (i : Nat) (f : FieldShape), fields[i]? = some f → f.Admits s (place + i)
  overlooks : ∀ r s s' place, s.SameKind s' →
    (∀ (i : Nat) (f : FieldShape), fields[i]? = some f →
      s'.get? f.key (place + i) = (s.get? f.key (place + i)).map f.shape.known) →
    x.read r s' place = x.read r s place

namespace Record

open Decode

theorem Follows.map {x : Record α} {fields : List FieldShape} (hx : x.Follows fields) (f : α → β) :
    (f <$> x).Follows fields where
  arity := hx.arity
  answers r s place := by
    rw [← hx.answers r s place]
    exact exists_map_ok_iff (f := f)
  overlooks r s s' place hkind hknown :=
    congrArg (Except.map f) (hx.overlooks r s s' place hkind hknown)

/-- The fields of two parts, one after the other. -/
theorem forall_place_append_iff {P : Nat → FieldShape → Prop} {before after : List FieldShape} :
    (∀ i f, (before ++ after)[i]? = some f → P i f) ↔
      (∀ i f, before[i]? = some f → P i f) ∧
        ∀ i f, after[i]? = some f → P (before.length + i) f := by
  constructor
  · intro hall
    refine ⟨fun i f hf => hall i f ?_, fun i f hf => hall _ f ?_⟩
    · rw [List.getElem?_append_left (List.getElem?_eq_some_iff.1 hf).1, hf]
    · rw [List.getElem?_append_right (Nat.le_add_right _ _), Nat.add_sub_cancel_left, hf]
  · rintro ⟨hbefore, hafter⟩ i f hf
    by_cases hi : i < before.length
    · rw [List.getElem?_append_left hi] at hf
      exact hbefore i f hf
    · have hle := Nat.le_of_not_lt hi
      rw [List.getElem?_append_right hle] at hf
      have hplace := hafter _ f hf
      rwa [Nat.add_sub_cancel' hle] at hplace

theorem Follows.seq {f : Record (α → β)} {x : Record α} {before after : List FieldShape}
    (hf : f.Follows before) (hx : x.Follows after) : (f <*> x).Follows (before ++ after) where
  arity := by
    rw [List.length_append, ← hf.arity, ← hx.arity]
    rfl
  answers r s place := by
    rw [forall_place_append_iff (P := fun i f => f.Admits s (place + i)), ← hf.answers r s place]
    simp only [← Nat.add_assoc]
    rw [← hx.answers r s, ← hf.arity, read_seq]
    cases f.read r s place with
    | error =>
        refine iff_of_false ?_ (fun h => nomatch h.1)
        cases x.read r s (place + f.arity) <;> exact nofun
    | ok g =>
        cases x.read r s (place + f.arity) with
        | error => exact iff_of_false nofun (fun h => nomatch h.2)
        | ok a => exact iff_of_true ⟨g a, rfl⟩ ⟨⟨g, rfl⟩, ⟨a, rfl⟩⟩
  overlooks r s s' place hkind hknown := by
    rw [forall_place_append_iff (P := fun i f =>
      s'.get? f.key (place + i) = (s.get? f.key (place + i)).map f.shape.known)] at hknown
    simp only [← Nat.add_assoc] at hknown
    rw [← hf.arity] at hknown
    rw [read_seq, read_seq, hf.overlooks r s s' place hkind hknown.1,
      hx.overlooks r s s' _ hkind hknown.2]

theorem forall_place_singleton_iff {P : Nat → FieldShape → Prop} {f : FieldShape} :
    (∀ i f', [f][i]? = some f' → P i f') ↔ P 0 f := by
  constructor
  · exact fun hall => hall 0 f rfl
  · intro hfirst i f' hf'
    cases i with
    | zero => exact Option.some.inj hf' ▸ hfirst
    | succ => contradiction

theorem follows_field {d : Decoder α} {f : FieldShape}
    (hd : Decode.Follows d f.shape) {absence : FieldSource → Option α}
    (hlack : ∀ s, (∃ a, absence s = some a) ↔ f.MayLack s)
    (hkind : ∀ s s', s.SameKind s' → absence s' = absence s) :
    (field f.key d absence).Follows [f] where
  arity := rfl
  answers r s place := by
    rw [forall_place_singleton_iff (P := fun i f => f.Admits s (place + i)), Nat.add_zero]
    simp only [field]
    cases hget : s.get? f.key place with
    | some v =>
        rw [FieldShape.admits_of_found hget, ← hd.answers r v]
        simp only [mapError_eq_ok_iff]
    | none =>
        rw [FieldShape.admits_of_absent hget, ← hlack s]
        cases absence s with
        | none => simp
        | some a => simp
  overlooks r s s' place hsame hknown := by
    have hfound := hknown 0 f rfl
    rw [Nat.add_zero] at hfound
    simp only [field, hfound]
    cases s.get? f.key place with
    | some v => simp only [Option.map_some, hd.overlooks]
    | none => simp only [Option.map_none, hkind s s' hsame]

theorem follows_defaulted {d : Decoder α} {s : Shape} (hd : Decode.Follows d s) (key : String)
    (a : α) : (defaulted key d a).Follows [.defaulted key s] := by
  refine follows_field (f := .defaulted key s) hd (fun s => ?_) (fun _ _ _ => rfl)
  cases s with
  | members => exact iff_of_true ⟨a, rfl⟩ trivial
  | items => exact iff_of_true ⟨a, rfl⟩ rfl

end Record

namespace Decode

variable {d : Decoder α} {s : Shape}

/-- A reader of simple values knows all of them. -/
theorem follows_whole {fits : Json → Prop} (hd : ∀ r v, (∃ a, d r v = .ok a) ↔ fits v) :
    Follows d (.whole fits) where
  answers := hd
  overlooks _ _ := rfl

theorem wrongType_refuses (v : Json) (wanted : String) :
    ¬ ∃ a, (wrongType v wanted : Except DecodeError α) = .ok a := nofun

theorem follows_bool : Follows bool .switch := by
  refine follows_whole (fun r v => ?_)
  cases v with
  | bool b => exact iff_of_true ⟨b, rfl⟩ trivial
  | null | number | string | array | object => exact iff_of_false (wrongType_refuses _ _) id

theorem follows_string : Follows string .text := by
  refine follows_whole (fun r v => ?_)
  cases v with
  | string s => exact iff_of_true ⟨s, rfl⟩ trivial
  | null | bool | number | array | object => exact iff_of_false (wrongType_refuses _ _) id

theorem follows_double : Follows double .number := by
  refine follows_whole (fun r v => ?_)
  cases v with
  | number n => exact iff_of_true ⟨n.toDouble, rfl⟩ trivial
  | null | bool | string | array | object => exact iff_of_false (wrongType_refuses _ _) id

/-- A reader of all documents. -/
theorem follows_any {f : Json → α} (hd : ∀ r v, d r v = .ok (f v)) : Follows d .any :=
  follows_whole (fun r v => iff_of_true ⟨f v, hd r v⟩ trivial)

/-- What is made of the answer plays no part. -/
theorem Follows.mapped (hd : Follows d s) (f : α → β) :
    Follows (fun r v => do return f (← d r v)) s where
  answers r v := by
    rw [← hd.answers r v]
    exact exists_map_ok_iff (f := f)
  overlooks r v := by
    rw [hd.overlooks]

theorem option_of_ne_null {v : Json} (hv : v ≠ .null) (r : Reading) :
    option d r v = (d r v).map some := by
  cases v with
  | null => contradiction
  | bool | number | string | array | object => rfl

theorem Follows.nullable (hd : Follows d s) : Follows (option d) s.nullable where
  answers r v := by
    by_cases hv : v = .null
    · subst hv
      exact iff_of_true ⟨none, rfl⟩ (.inl rfl)
    · rw [option_of_ne_null hv, exists_map_ok_iff, hd.answers]
      exact (or_iff_right hv).symm
  overlooks r v := by
    by_cases hv : v = .null
    · subst hv
      rfl
    · rw [Shape.nullable_known hv, option_of_ne_null hv, option_of_ne_null (s.known_ne_null v hv),
        hd.overlooks]

theorem exists_mapM_ok_iff {ε : Type} {g : β → Except ε α} {items : List β} :
    (∃ as, items.mapM g = .ok as) ↔ ∀ b ∈ items, ∃ a, g b = .ok a := by
  induction items with
  | nil => exact iff_of_true ⟨[], rfl⟩ (List.forall_mem_nil _)
  | cons b rest ih =>
      rw [List.forall_mem_cons, ← ih, List.mapM_cons]
      simp only [bind_eq_ok_iff]
      constructor
      · rintro ⟨_, a, ha, as, has, _⟩
        exact ⟨⟨a, ha⟩, as, has⟩
      · rintro ⟨⟨a, ha⟩, as, has⟩
        exact ⟨a :: as, a, ha, as, has, rfl⟩

theorem Follows.list (hd : Follows d s) : Follows (list d) s.list where
  answers r v := by
    cases v with
    | array items =>
        rw [Decode.list, exists_mapM_ok_iff]
        simp only [hd.answers]
        rfl
    | null | bool | number | string | object => exact iff_of_false (wrongType_refuses _ _) id
  overlooks r v := by
    cases v with
    | array items =>
        simp only [Shape.list, Decode.list, List.mapM_map, Function.comp_def, hd.overlooks]
    | null | bool | number | string | object => rfl

theorem Follows.map (hd : Follows d s) : Follows (map d) s.map where
  answers r v := by
    cases v with
    | object ms =>
        rw [Decode.map, exists_map_ok_iff, exists_mapM_ok_iff]
        simp only [exists_map_ok_iff, hd.answers]
        rfl
    | null | bool | number | string | array => exact iff_of_false (wrongType_refuses _ _) id
  overlooks r v := by
    cases v with
    | object ms =>
        simp only [Shape.map, Decode.map, List.mapM_map, Function.comp_def, hd.overlooks]
    | null | bool | number | string | array => rfl

end Decode

namespace Record

theorem follows_nullable {d : Decoder α} {s : Shape} (hd : Decode.Follows d s) (key : String) :
    (nullable key d).Follows [.nullable key s] := by
  refine follows_field (f := .nullable key s) hd.nullable (fun s => ?_) (fun s s' hsame => ?_)
  · cases s with
    | members => exact iff_of_true ⟨none, rfl⟩ trivial
    | items => exact iff_of_false nofun nofun
  · cases s <;> cases s' <;> first | rfl | contradiction

end Record

namespace Shape

variable {fields : List FieldShape}

theorem find?_key {f : FieldShape} (hkeys : (fields.map FieldShape.key).Nodup) (hf : f ∈ fields) :
    fields.find? (fun g => g.key == f.key) = some f := by
  induction fields with
  | nil => exact absurd hf List.not_mem_nil
  | cons g rest ih =>
      rw [List.map_cons, List.nodup_cons] at hkeys
      rcases List.mem_cons.1 hf with rfl | hrest
      · exact List.find?_cons_of_pos (beq_self_eq_true _)
      · have hother : (g.key == f.key) = false := by
          rw [beq_eq_false_iff_ne]
          exact fun hsame => hkeys.1 (hsame ▸ List.mem_map_of_mem hrest)
        rw [List.find?_cons, hother, ih hkeys.2 hrest]

/-- What is known of members keeps what is known of each field. -/
theorem member?_knownMembers {f : FieldShape} (hkeys : (fields.map FieldShape.key).Nodup)
    (hf : f ∈ fields) (ms : List (String × Json)) :
    Json.member? f.key (knownMembers fields ms) = (Json.member? f.key ms).map f.shape.known := by
  induction ms with
  | nil => rfl
  | cons m rest ih =>
      rw [knownMembers, List.filterMap_cons, Json.member?_cons]
      by_cases hfirst : f.key = m.1
      · rw [← hfirst, find?_key hkeys hf, if_pos rfl]
        exact if_pos rfl
      · rw [if_neg hfirst, ← ih]
        cases fields.find? (fun g => g.key == m.1) with
        | none => rfl
        | some g => exact if_neg hfirst

theorem getElem?_knownItems {f : FieldShape} {i : Nat} (hf : fields[i]? = some f)
    (items : List Json) : (knownItems fields items)[i]? = items[i]?.map f.shape.known := by
  rw [knownItems, List.getElem?_mapIdx, hf]
  rfl

theorem fitMembers_iff {ms : List (String × Json)} : FitMembers fields ms ↔
    ∀ (i : Nat) (f : FieldShape), fields[i]? = some f → f.Admits (.members ms) (0 + i) := by
  constructor
  · exact fun hfit i f hf => ⟨hfit f (List.mem_of_getElem? hf), fun _ => trivial⟩
  · intro hadmits f hf v hv
    obtain ⟨i, hi⟩ := List.getElem?_of_mem hf
    exact (hadmits i f hi).found v hv

theorem fitItems_iff {items : List Json} : FitItems fields items ↔
    (∀ (i : Nat) (f : FieldShape), fields[i]? = some f → f.Admits (.items items) (0 + i)) ∧
      items.length ≤ fields.length := by
  simp only [Nat.zero_add]
  constructor
  · intro hfit
    refine ⟨fun i f hf => ⟨fun v => hfit.shape i f v hf, fun hnone => ?_⟩, hfit.length_le⟩
    exact hfit.enough i f hf (List.getElem?_eq_none_iff.1 hnone)
  · rintro ⟨hadmits, hlength⟩
    refine ⟨fun i f v hf => (hadmits i f hf).found v, fun i f hf hshort => ?_, hlength⟩
    exact (hadmits i f hf).absent (List.getElem?_eq_none_iff.2 hshort)

end Shape

namespace Record

open Decode Shape

variable {x : Record α} {fields : List FieldShape}

theorem Follows.members_answers (hx : x.Follows fields) (r : Reading) (ms : List (String × Json)) :
    (∃ a, members x r ms = .ok a) ↔ FitMembers fields ms := by
  simp only [members, mapError_eq_ok_iff]
  rw [hx.answers, fitMembers_iff]

/-- A record is found in what is known of more fields than its own. -/
theorem Follows.members_overlooks {all : List FieldShape} (hx : x.Follows fields)
    (hkeys : (all.map FieldShape.key).Nodup) (hfields : ∀ f ∈ fields, f ∈ all) (r : Reading)
    (ms : List (String × Json)) : members x r (knownMembers all ms) = members x r ms := by
  have hread := hx.overlooks r (.members ms) (.members (knownMembers all ms)) 0 trivial
    (fun i f hf => member?_knownMembers hkeys (hfields f (List.mem_of_getElem? hf)) ms)
  rw [members, members, hread]

theorem Follows.items_answers (hx : x.Follows fields) (name : String) (r : Reading)
    (xs : List Json) : (∃ a, items name x r xs = .ok a) ↔ FitItems fields xs := by
  simp only [items, bind_eq_ok_iff, mapError_eq_ok_iff, ite_throw_eq_ok_iff]
  rw [fitItems_iff, ← hx.answers r, hx.arity, Nat.not_lt]
  constructor
  · rintro ⟨_, a, ha, hlength, _⟩
    exact ⟨⟨a, ha⟩, hlength⟩
  · rintro ⟨⟨a, ha⟩, hlength⟩
    exact ⟨a, a, ha, hlength, rfl⟩

theorem Follows.items_overlooks (hx : x.Follows fields) (name : String) (r : Reading)
    (xs : List Json) : items name x r (knownItems fields xs) = items name x r xs := by
  have hread := hx.overlooks r (.items xs) (.items (knownItems fields xs)) 0 trivial
    (fun i f hf => by
      rw [Nat.zero_add]
      exact getElem?_knownItems hf xs)
  have hlength : (knownItems fields xs).length = xs.length := List.length_mapIdx
  rw [items, items, hread, hlength]

end Record

namespace Decode

open Shape

theorem Follows.record {x : Record α} {fields : List FieldShape} (hx : x.Follows fields)
    (hkeys : (fields.map FieldShape.key).Nodup) (name : String) :
    Follows (record name x) (.record fields) where
  answers r v := by
    cases v with
    | object ms => exact hx.members_answers r ms
    | array xs => exact hx.items_answers name r xs
    | null | bool | number | string => exact iff_of_false (wrongType_refuses _ _) id
  overlooks r v := by
    cases v with
    | object ms => exact hx.members_overlooks hkeys (fun _ hf => hf) r ms
    | array xs => exact hx.items_overlooks name r xs
    | null | bool | number | string => rfl

/-- A record whose part stands among its own members. -/
theorem Follows.spread {own : Record α} {part : Record β} {ours theirs : List FieldShape}
    (hown : own.Follows ours) (hpart : part.Follows theirs)
    (hkeys : ((ours ++ theirs).map FieldShape.key).Nodup) (name : String) (inner : Reading) :
    Follows (spread name own (members part inner)) (.object (ours ++ theirs)) where
  answers r v := by
    cases v with
    | object ms =>
        have hparts : FitMembers (ours ++ theirs) ms ↔ FitMembers ours ms ∧ FitMembers theirs ms :=
          List.forall_mem_append
        change _ ↔ FitMembers (ours ++ theirs) ms
        rw [hparts, ← hown.members_answers r, ← hpart.members_answers inner]
        simp only [Decode.spread, bind_eq_ok_iff]
        constructor
        · rintro ⟨_, a, ha, b, hb, _⟩
          exact ⟨⟨a, ha⟩, ⟨b, hb⟩⟩
        · rintro ⟨⟨a, ha⟩, ⟨b, hb⟩⟩
          exact ⟨(a, b), a, ha, b, hb, rfl⟩
    | null | bool | number | string | array => exact iff_of_false (wrongType_refuses _ _) id
  overlooks r v := by
    cases v with
    | object ms =>
        have hours := hown.members_overlooks hkeys (fun _ hf => List.mem_append_left _ hf) r ms
        have htheirs :=
          hpart.members_overlooks hkeys (fun _ hf => List.mem_append_right _ hf) inner ms
        simp only [Shape.object, Decode.spread, hours, htheirs]
    | null | bool | number | string | array => rfl

end Decode

end FlagGovernance
