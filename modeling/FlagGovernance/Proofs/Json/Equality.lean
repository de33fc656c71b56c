import FlagGovernance.Proofs.Json.WellFormed
import Mathlib.Data.String.Basic
/-
Equality of documents.

It tells an integer from a real and does not tell the two zeros apart.  Objects in order
of key are equal just when the same is found in them under every key.
-/

namespace FlagGovernance

theorem Double.same_comm (a b : Double) : a.same b = b.same a := by
  simp only [Double.same, Bool.and_comm a.isNaN.not, Bool.beq_comm (a := a.rank)]

theorem Number.equal_comm (a b : Number) : a.equal b = b.equal a := by
  cases a <;> cases b <;> simp only [Number.equal, Double.same_comm, Bool.beq_comm]

theorem Number.equal_self {n : Number} (hn : n.WellFormed) : n.equal n = true := by
  cases n with
  | integer i => simp [equal]
  | real d =>
      have hfinite : d.magnitude < Double.infiniteMagnitude := of_decide_eq_true hn
      simp [equal, Double.same, Double.isNaN, hfinite.le]

namespace Json

open OrderedMap

/-- Equality where a document may be absent, which is equal to its absence only. -/
def alike : Option Json → Option Json → Bool
  | none, none => true
  | some a, some b => a.equal b
  | _, _ => false

mutual

theorem equal_comm (a b : Json) : a.equal b = b.equal a := by
  cases a <;> cases b <;> simp only [equal]
  · exact Bool.beq_comm
  · exact Number.equal_comm _ _
  · exact Bool.beq_comm
  · exact equalItems_comm _ _
  · exact equalMembers_comm _ _

theorem equalItems_comm (as bs : List Json) : equalItems as bs = equalItems bs as := by
  cases as <;> cases bs <;> simp only [equalItems]
  rw [equal_comm, equalItems_comm]

theorem equalMembers_comm (as bs : List (String × Json)) :
    equalMembers as bs = equalMembers bs as := by
  match as, bs with
  | [], [] | [], _ :: _ | _ :: _, [] => simp only [equalMembers]
  | (k, a) :: as, (l, b) :: bs =>
      simp only [equalMembers]
      rw [Bool.beq_comm, equal_comm, equalMembers_comm]

end

theorem alike_comm (a? b? : Option Json) : alike a? b? = alike b? a? := by
  cases a? <;> cases b? <;> simp only [alike]
  exact equal_comm _ _

theorem alike_eq_true_iff (a? b? : Option Json) :
    alike a? b? = true ↔
      (a? = none ∧ b? = none) ∨ ∃ a b, a? = some a ∧ b? = some b ∧ a.equal b = true := by
  cases a? <;> cases b? <;> simp [alike]

theorem ascending_of_wellFormed {ms : List (String × Json)} (hms : (Json.object ms).WellFormed) :
    Ascending ms := by
  cases hms with
  | object hordered _ => exact hordered

theorem wellFormed_of_member? {ms : List (String × Json)} (hms : (Json.object ms).WellFormed)
    {key : String} : ∀ v ∈ member? key ms, v.WellFormed := by
  intro v hv
  cases hms with
  | object _ hmembers =>
      rw [Option.mem_def, member?_eq_findEntry] at hv
      exact hmembers _ (mem_of_findEntry?_eq_some hv)

theorem pairwise_keys {ms : List (String × Json)} (hordered : Ascending ms) :
    (ms.map Prod.fst).Pairwise (· < ·) :=
  List.pairwise_map.mpr (hordered.imp fun hlt => compare_lt_iff_lt.mp hlt)

theorem lt_of_ascending {first m : String × Json} {ms : List (String × Json)}
    (hordered : Ascending (first :: ms)) (hmem : m ∈ ms) : first.1 < m.1 :=
  compare_lt_iff_lt.mp ((List.pairwise_cons.mp hordered).1 m hmem)

theorem member?_eq_none_of_ne {key : String} {ms : List (String × Json)}
    (hne : ∀ m ∈ ms, key ≠ m.1) : member? key ms = none := by
  rw [member?_eq_findEntry]
  exact findEntry?_eq_none_of_forall_ne hne

theorem member?_eq_none_iff {key : String} {ms : List (String × Json)} :
    member? key ms = none ↔ key ∉ ms.map Prod.fst := by
  rw [member?_eq_findEntry, findEntry?_eq_none_iff]

theorem member?_of_mem {m : String × Json} {ms : List (String × Json)}
    (hordered : Ascending ms) (hmem : m ∈ ms) : member? m.1 ms = some m.2 := by
  rw [member?_eq_findEntry]
  exact (mem_iff_of_ascending hordered).mp hmem

/-- Under its first key an object has the first member, and nothing after it. -/
theorem member?_first {m : String × Json} {ms : List (String × Json)}
    (hordered : Ascending (m :: ms)) : member? m.1 ms = none :=
  member?_eq_none_of_ne fun _ hmem => (lt_of_ascending hordered hmem).ne

/-- An object has nothing before its first key. -/
theorem member?_before {key : String} {m : String × Json} {ms : List (String × Json)}
    (hordered : Ascending (m :: ms)) (hlt : key < m.1) : member? key (m :: ms) = none := by
  apply member?_eq_none_of_ne
  rw [List.forall_mem_cons]
  exact ⟨hlt.ne, fun later hmem => (hlt.trans (lt_of_ascending hordered hmem)).ne⟩

theorem equalMembers_iff {as bs : List (String × Json)} (has : Ascending as)
    (hbs : Ascending bs) :
    equalMembers as bs = true ↔ ∀ key, alike (member? key as) (member? key bs) = true := by
  induction as generalizing bs with
  | nil =>
      cases bs with
      | nil => simp [equalMembers, alike]
      | cons m rest =>
          obtain ⟨l, b⟩ := m
          simp only [equalMembers, Bool.false_eq_true, false_iff]
          intro hsame
          simpa [alike] using hsame l
  | cons m rest ih =>
      obtain ⟨k, a⟩ := m
      cases bs with
      | nil =>
          simp only [equalMembers, Bool.false_eq_true, false_iff]
          intro hsame
          simpa [alike] using hsame k
      | cons m' rest' =>
          obtain ⟨l, b⟩ := m'
          have htail := ih (List.pairwise_cons.mp has).2 (List.pairwise_cons.mp hbs).2
          have hfirst := member?_first has
          have hfirst' := member?_first hbs
          simp only [equalMembers, Bool.and_eq_true, beq_iff_eq, htail]
          constructor
          · rintro ⟨⟨rfl, hvalue⟩, hrest⟩ key
            by_cases hkey : key = k
            · simpa [hkey, alike] using hvalue
            · simpa [hkey] using hrest key
          · intro hsame
            have hkeys : k = l := by
              rcases lt_trichotomy k l with hlt | heq | hlt
              · have habsent := hsame k
                rw [member?_before hbs hlt] at habsent
                simp [alike] at habsent
              · exact heq
              · have habsent := hsame l
                rw [member?_before has hlt] at habsent
                simp [alike] at habsent
            subst hkeys
            refine ⟨⟨rfl, by simpa [alike] using hsame k⟩, fun key => ?_⟩
            by_cases hkey : key = k
            · subst hkey
              rw [hfirst, hfirst']
              rfl
            · simpa [hkey] using hsame key

/-- Objects in order of key are equal just when the same is found in them under every
key. -/
theorem equal_object_iff {as bs : List (String × Json)} (has : Ascending as)
    (hbs : Ascending bs) :
    (Json.object as).equal (.object bs) = true ↔
      ∀ key, alike (member? key as) (member? key bs) = true := by
  rw [equal]
  exact equalMembers_iff has hbs

theorem equalItems_self {items : List Json} (hitems : ∀ v ∈ items, v.equal v = true) :
    equalItems items items = true := by
  induction items with
  | nil => rfl
  | cons v rest ih =>
      rw [List.forall_mem_cons] at hitems
      exact Bool.and_eq_true_iff.mpr ⟨hitems.1, ih hitems.2⟩

/-- A document that has no number but finite ones is equal to itself. -/
theorem equal_self {v : Json} (hv : v.WellFormed) : v.equal v = true := by
  induction hv with
  | null => rfl
  | bool | string => simp [equal]
  | number hn => exact Number.equal_self hn
  | array _ ih =>
      rw [equal]
      exact equalItems_self ih
  | @object members hordered _ ih =>
      rw [equal_object_iff hordered hordered]
      intro key
      cases hmember : member? key members with
      | none => rfl
      | some v =>
          rw [member?_eq_findEntry] at hmember
          exact ih _ (mem_of_findEntry?_eq_some hmember)

theorem alike_self {v? : Option Json} (hv : ∀ v ∈ v?, v.WellFormed) : alike v? v? = true := by
  cases v? with
  | none => rfl
  | some v => exact equal_self (hv v rfl)

end Json

end FlagGovernance
