import FlagGovernance.Decode.Choice
import FlagGovernance.Proofs.Json.WellFormed
import FlagGovernance.Proofs.Refusal
/-
What readers of documents read.

There are two laws, and each goes from the fields of a record to the record and from
items to lists and maps.  A reader `Reads` a document as a value if that is its answer
however the document reaches it.  A reader `Ensures` a property if every value that it
reads from a well-formed document has it.
-/

namespace FlagGovernance

variable {α β : Type}

/-- All that fields are found in is well-formed. -/
def FieldSource.WellFormed : FieldSource → Prop
  | .members ms => ∀ m ∈ ms, m.2.WellFormed
  | .items xs => ∀ v ∈ xs, v.WellFormed

theorem FieldSource.wellFormed_of_get? {s : FieldSource} (hs : s.WellFormed) {key : String}
    {place : Nat} {v : Json} (hget : s.get? key place = some v) : v.WellFormed := by
  cases s with
  | members ms =>
      rw [get?, Json.member?_eq_findEntry] at hget
      exact hs _ (OrderedMap.mem_of_findEntry?_eq_some hget)
  | items xs => exact hs v (List.mem_of_getElem? hget)

/-- Among the members the record is found with the value. -/
def Record.Finds (x : Record α) (ms : List (String × Json)) (a : α) : Prop :=
  ∀ r place, x.read r (.members ms) place = .ok a

/-- Whatever record is found in well-formed fields has the property. -/
def Record.Ensures (x : Record α) (P : α → Prop) : Prop :=
  ∀ r s place a, s.WellFormed → x.read r s place = .ok a → P a

namespace Decode

/-- The document is read as the value, however it reaches the reader. -/
def Reads (d : Decoder α) (v : Json) (a : α) : Prop := ∀ r, d r v = .ok a

/-- Whatever is read from a well-formed document has the property. -/
def Ensures (d : Decoder α) (P : α → Prop) : Prop :=
  ∀ r v a, v.WellFormed → d r v = .ok a → P a

end Decode

/-- Whatever the alternative carries has the property. -/
def Alternative.Ensures : Alternative α → (α → Prop) → Prop
  | .nothing a, P => P a
  | .carrying d, P => Decode.Ensures d P

namespace Record

open Decode

variable {ms : List (String × Json)} {key : String} {d : Decoder α}

theorem Finds.map {x : Record α} {a : α} (hx : x.Finds ms a) (f : α → β) :
    (f <$> x).Finds ms (f a) := by
  intro r place
  change (x.read r (.members ms) place).map f = .ok (f a)
  rw [hx r place]
  rfl

theorem read_seq (f : Record (α → β)) (x : Record α) (r : Reading) (s : FieldSource)
    (place : Nat) : (f <*> x).read r s place =
      match f.read r s place, x.read r s (place + f.arity) with
      | .ok g, .ok a => .ok (g a)
      | .ok _, .error faults => .error faults
      | .error faults, .ok _ => .error faults
      | .error before, .error after => .error (before ++ after) := rfl

theorem Finds.seq {f : Record (α → β)} {x : Record α} {g : α → β} {a : α} (hf : f.Finds ms g)
    (hx : x.Finds ms a) : (f <*> x).Finds ms (g a) := by
  intro r place
  rw [read_seq, hf r place, hx r (place + f.arity)]

theorem finds_field {v : Json} {a : α} (hmember : Json.member? key ms = some v)
    (hd : Reads d v a) (absence : FieldSource → Option α) : (field key d absence).Finds ms a := by
  intro r place
  simp only [field, FieldSource.get?, hmember, hd r]
  rfl

theorem finds_field_absent {a : α} (hmember : Json.member? key ms = none)
    {absence : FieldSource → Option α} (habsence : absence (.members ms) = some a) :
    (field key d absence).Finds ms a := by
  intro r place
  simp only [field, FieldSource.get?, hmember, habsence]

/-- A value that may be left out, where it is told. -/
theorem finds_field_some {v : Json} {a : α} (hmember : Json.member? key ms = some v)
    (hd : Reads d v a) (hnull : v ≠ .null) (absence : FieldSource → Option (Option α)) :
    (field key (option d) absence).Finds ms (some a) := by
  refine finds_field hmember (fun r => ?_) _
  cases v with
  | null => contradiction
  | bool | number | string | array | object =>
      rw [option, hd r]
      · rfl
      · exact nofun

theorem Ensures.map {x : Record α} {P : α → Prop} {Q : β → Prop} {f : α → β}
    (hx : x.Ensures P) (hf : ∀ a, P a → Q (f a)) : (f <$> x).Ensures Q := by
  intro r s place b hs hread
  obtain ⟨a, ha, rfl⟩ := map_eq_ok_iff.1 (show (x.read r s place).map f = .ok b from hread)
  exact hf a (hx r s place a hs ha)

theorem Ensures.seq {f : Record (α → β)} {x : Record α} {P : α → Prop} {Q : β → Prop}
    (hf : f.Ensures (fun g => ∀ a, P a → Q (g a))) (hx : x.Ensures P) :
    (f <*> x).Ensures Q := by
  intro r s place b hs hread
  rw [read_seq] at hread
  cases hfirst : f.read r s place with
  | error => cases hsecond : x.read r s (place + f.arity) <;> simp [hfirst, hsecond] at hread
  | ok g =>
      cases hsecond : x.read r s (place + f.arity) with
      | error => simp [hfirst, hsecond] at hread
      | ok a =>
          rw [hfirst, hsecond] at hread
          rw [← Except.ok.inj hread]
          exact hf r s place g hs hfirst a (hx r s _ a hs hsecond)

theorem ensures_field {P : α → Prop} (hd : Decode.Ensures d P)
    {absence : FieldSource → Option α} (habsence : ∀ s a, absence s = some a → P a) :
    (field key d absence).Ensures P := by
  intro r s place a hs hread
  simp only [field] at hread
  split at hread
  · next v hget =>
    exact hd r v a (FieldSource.wellFormed_of_get? hs hget) (mapError_eq_ok_iff.1 hread)
  · split at hread
    · next a' habsent => exact Except.ok.inj hread ▸ habsence s a' habsent
    · contradiction

theorem ensures_required {P : α → Prop} (hd : Decode.Ensures d P) :
    (required key d).Ensures P :=
  ensures_field hd nofun

theorem ensures_defaulted {P : α → Prop} (hd : Decode.Ensures d P) {a : α} (ha : P a) :
    (defaulted key d a).Ensures P :=
  ensures_field hd (fun _ _ hsome => Option.some.inj hsome ▸ ha)

theorem ensures_option {P : α → Prop} (hd : Decode.Ensures d P) :
    Decode.Ensures (option d) (fun a? => ∀ a, a? = some a → P a) := by
  intro r v a? hv hread a ha
  subst ha
  cases v with
  | null => exact nomatch Except.ok.inj hread
  | bool | number | string | array | object =>
      obtain ⟨a', ha, hsome⟩ := map_eq_ok_iff.1 hread
      exact hd r _ a hv (Option.some.inj hsome ▸ ha)

theorem ensures_nullable {P : α → Prop} (hd : Decode.Ensures d P) :
    (nullable key d).Ensures (fun a? => ∀ a, a? = some a → P a) := by
  refine ensures_field (ensures_option hd) (fun s a? habsent a ha => ?_)
  subst ha
  cases s with
  | members => exact nomatch Option.some.inj habsent
  | items => contradiction

theorem ensures_optional {P : α → Prop} (hd : Decode.Ensures d P) :
    (optional key d).Ensures (fun a? => ∀ a, a? = some a → P a) :=
  ensures_defaulted (ensures_option hd) nofun

end Record

namespace Decode

open OrderedMap

variable {d : Decoder α} {P : α → Prop}

theorem mapM_eq_map {ε : Type} {g : β → Except ε α} {f : β → α} {items : List β}
    (hitems : ∀ b ∈ items, g b = .ok (f b)) : items.mapM g = .ok (items.map f) := by
  induction items with
  | nil => rfl
  | cons b rest ih =>
      rw [List.forall_mem_cons] at hitems
      rw [List.mapM_cons, bind_of_ok hitems.1, bind_of_ok (ih hitems.2)]
      rfl

theorem Reads.list {encode : β → Json} {f : β → α} {items : List β}
    (hitems : ∀ b ∈ items, Reads d (encode b) (f b)) :
    Reads (list d) (.array (items.map encode)) (items.map f) := by
  intro r
  rw [Decode.list, List.mapM_map]
  exact mapM_eq_map (fun b hmem => hitems b hmem r)

theorem Reads.map {encode : α → Json} (m : OrderedMap String α)
    (hvalues : ∀ a ∈ m.values, Reads d (encode a) a) :
    Reads (map d) (.object (m.mapValues encode).entries) m := by
  intro r
  have hentries : ∀ entry ∈ m.entries,
      ((fun member => (d r member.2).map ((member.1, ·))) ∘
        fun entry : String × α => (entry.1, encode entry.2)) entry = .ok (id entry) := by
    intro entry hmem
    change (d r (encode entry.2)).map _ = _
    rw [hvalues entry.2 (List.mem_map_of_mem hmem) r]
    rfl
  rw [Decode.map, mapValues, List.mapM_map, mapM_eq_map hentries, List.map_id]
  exact congrArg Except.ok (ofList_entries m)

theorem Reads.record {x : Record α} {ms : List (String × Json)} {a : α} (hx : x.Finds ms a)
    (name : String) : Reads (record name x) (.object ms) a := by
  intro r
  rw [Decode.record, members, hx r 0]
  rfl

theorem Reads.spread {own : Record α} {part : List (String × Json) → Except DecodeError β}
    {ms : List (String × Json)} {a : α} {b : β} (hown : own.Finds ms a) (hpart : part ms = .ok b)
    (name : String) : Reads (spread name own part) (.object ms) (a, b) := by
  intro r
  rw [Decode.spread, members, hown r 0, hpart]
  rfl

theorem members_of_finds {x : Record α} {ms : List (String × Json)} {a : α} (hx : x.Finds ms a)
    (r : Reading) : members x r ms = .ok a := by
  rw [members, hx r 0]
  rfl

theorem Reads.mapped {d : Decoder α} {v : Json} {a : α} (hd : Reads d v a) (f : α → β) :
    Reads (fun r v => (d r v).map f) v (f a) :=
  fun r => congrArg (Except.map f) (hd r)

theorem ensures_true (d : Decoder α) : Ensures d (fun _ => True) :=
  fun _ _ _ _ _ => trivial

theorem Ensures.mapped {Q : β → Prop} {f : α → β} (hd : Ensures d P) (hf : ∀ a, P a → Q (f a)) :
    Ensures (fun r v => (d r v).map f) Q := by
  intro r v b hv hread
  obtain ⟨a, ha, rfl⟩ := map_eq_ok_iff.1 hread
  exact hf a (hd r v a hv ha)

theorem forall_mem_of_mapM {ε : Type} {g : β → Except ε α} {items : List β} {results : List α}
    (hmapM : items.mapM g = .ok results) (hitems : ∀ b ∈ items, ∀ a, g b = .ok a → P a) :
    ∀ a ∈ results, P a := by
  induction items generalizing results with
  | nil =>
      obtain rfl : [] = results := Except.ok.inj hmapM
      exact nofun
  | cons b rest ih =>
      rw [List.forall_mem_cons] at hitems
      rw [List.mapM_cons] at hmapM
      obtain ⟨a, ha, hrest⟩ := bind_eq_ok_iff.1 hmapM
      obtain ⟨more, hmore, hresults⟩ := bind_eq_ok_iff.1 hrest
      obtain rfl : a :: more = results := Except.ok.inj hresults
      exact List.forall_mem_cons.2 ⟨hitems.1 a ha, ih hmore hitems.2⟩

theorem Ensures.list (hd : Ensures d P) : Ensures (list d) (fun items => ∀ a ∈ items, P a) := by
  intro r v items hv hread
  cases hv with
  | null | bool | number | string | object => contradiction
  | array hitems =>
      exact forall_mem_of_mapM hread (fun v hmem a ha => hd r v a (hitems v hmem) ha)

theorem mem_of_mem_foldl_insert {m : OrderedMap String α} {entries : List (String × α)}
    {entry : String × α} (hmem : entry ∈ (entries.foldl (fun m e => m.insert e.1 e.2) m).entries) :
    entry ∈ m.entries ∨ entry ∈ entries := by
  induction entries generalizing m with
  | nil => exact .inl hmem
  | cons first rest ih =>
      rcases ih hmem with hinsert | hrest
      · rcases fst_of_mem_insertEntry hinsert with rfl | hold
        · exact .inr List.mem_cons_self
        · exact .inl hold
      · exact .inr (List.mem_cons_of_mem _ hrest)

theorem Ensures.map (hd : Ensures d P) : Ensures (map d) (fun m => ∀ a ∈ m.values, P a) := by
  intro r v m hv hread
  cases hv with
  | null | bool | number | string | array => contradiction
  | object _ hmembers =>
      obtain ⟨bindings, hbindings, rfl⟩ := map_eq_ok_iff.1 hread
      have hall : ∀ entry ∈ bindings, P entry.2 := by
        refine forall_mem_of_mapM (P := fun entry => P entry.2) hbindings
          (fun member hmem entry hentry => ?_)
        obtain ⟨a, ha, rfl⟩ := map_eq_ok_iff.1 hentry
        exact hd r member.2 a (hmembers member hmem) ha
      refine List.forall_mem_map.2 (fun entry hmem => ?_)
      rcases mem_of_mem_foldl_insert hmem with hnone | hthere
      · exact absurd hnone List.not_mem_nil
      · exact hall entry hthere

theorem ensures_members {x : Record α} (hx : x.Ensures P) {r : Reading}
    {ms : List (String × Json)} (hms : ∀ m ∈ ms, m.2.WellFormed) {a : α}
    (hread : members x r ms = .ok a) : P a :=
  hx r (.members ms) 0 a hms (mapError_eq_ok_iff.1 hread)

theorem Ensures.record {x : Record α} (hx : x.Ensures P) (name : String) :
    Ensures (record name x) P := by
  intro r v a hv hread
  cases hv with
  | null | bool | number | string => contradiction
  | object _ hmembers => exact ensures_members hx hmembers hread
  | array hitems =>
      obtain ⟨a', ha, hrest⟩ := bind_eq_ok_iff.1 hread
      obtain ⟨_, hsame⟩ := ite_throw_eq_ok_iff.1 hrest
      obtain rfl : a' = a := Except.ok.inj hsame
      exact hx r (.items _) 0 a' hitems (mapError_eq_ok_iff.1 ha)

theorem Ensures.spread {own : Record α} (hown : own.Ensures P) {Q : β → Prop}
    {part : List (String × Json) → Except DecodeError β}
    (hpart : ∀ ms b, (∀ m ∈ ms, m.2.WellFormed) → part ms = .ok b → Q b) (name : String) :
    Ensures (spread name own part) (fun found => P found.1 ∧ Q found.2) := by
  intro r v found hv hread
  cases hv with
  | null | bool | number | string | array => contradiction
  | object _ hmembers =>
      obtain ⟨a, ha, hrest⟩ := bind_eq_ok_iff.1 hread
      obtain ⟨b, hb, hsame⟩ := bind_eq_ok_iff.1 hrest
      obtain rfl : (a, b) = found := Except.ok.inj hsame
      exact ⟨ensures_members hown hmembers ha, hpart _ b hmembers hb⟩

variable {choices : List (String × Alternative α)}

/-- The value is what the choice of the name carries. -/
def Carries (choices : List (String × Alternative α)) (m : String × Json) (a : α) : Prop :=
  ∃ found, alternative choices m.1 = .ok found ∧ Reads (Alternative.applied found) m.2 a

theorem Reads.choice {m : String × Json} {a : α} (hm : Carries choices m a) :
    Reads (choice choices) (.object [m]) a := by
  obtain ⟨found, hfound, happlied⟩ := hm
  intro r
  exact (bind_of_ok hfound _).trans (happlied r)

theorem spreadChoice_of_carries {m : String × Json} {a : α} (hm : Carries choices m a)
    {ms : List (String × Json)}
    (hfind : ms.find? (fun m => choices.any (fun c => c.1 == m.1)) = some m) (name : String) :
    spreadChoice name choices ms = .ok a := by
  obtain ⟨found, hfound, happlied⟩ := hm
  rw [spreadChoice, hfind]
  exact (bind_of_ok hfound _).trans (happlied .aside)

theorem mem_of_alternative {name : String} {a : Alternative α}
    (halternative : alternative choices name = .ok a) : (name, a) ∈ choices := by
  rw [alternative] at halternative
  split at halternative
  · next hlookup =>
    obtain ⟨before, after, rfl, _⟩ := List.lookup_eq_some_iff.1 hlookup
    rw [← Except.ok.inj halternative]
    exact List.mem_append_right before List.mem_cons_self
  · contradiction

theorem ensures_applied {choice : Alternative α} (hchoice : choice.Ensures P) :
    Decode.Ensures (Alternative.applied choice) P := by
  cases choice with
  | nothing a =>
      intro r v a' _ hread
      obtain ⟨_, _, rfl⟩ := map_eq_ok_iff.1 hread
      exact hchoice
  | carrying d => exact hchoice

theorem Ensures.choice (hchoices : ∀ c ∈ choices, c.2.Ensures P) :
    Ensures (choice choices) P := by
  intro r v a hv hread
  cases hv with
  | null | bool | number | array => contradiction
  | string name =>
      obtain ⟨found, hfound, hbare⟩ := bind_eq_ok_iff.1 hread
      have hensures := hchoices _ (mem_of_alternative hfound)
      cases found with
      | nothing a' => exact Except.ok.inj hbare ▸ hensures
      | carrying => contradiction
  | @object members _ hmembers =>
      match members with
      | [(name, v)] =>
          obtain ⟨found, hfound, happlied⟩ := bind_eq_ok_iff.1 hread
          exact ensures_applied (hchoices _ (mem_of_alternative hfound)) r v a
            (hmembers _ List.mem_cons_self) happlied
      | [] | _ :: _ :: _ => contradiction

theorem ensures_spreadChoice (hchoices : ∀ c ∈ choices, c.2.Ensures P) {name : String}
    {ms : List (String × Json)} (hms : ∀ m ∈ ms, m.2.WellFormed) {a : α}
    (hread : spreadChoice name choices ms = .ok a) : P a := by
  rw [spreadChoice] at hread
  split at hread
  · next key v hfind =>
    obtain ⟨found, hfound, happlied⟩ := bind_eq_ok_iff.1 hread
    exact ensures_applied (hchoices _ (mem_of_alternative hfound)) .aside v a
      (hms _ (List.mem_of_find?_eq_some hfind)) happlied
  · contradiction

end Decode

end FlagGovernance
