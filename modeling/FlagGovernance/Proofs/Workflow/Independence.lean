import FlagGovernance.Proofs.Atomicity
import FlagGovernance.Proofs.Workflow.Actions
import FlagGovernance.Proofs.Workflow.Applied
/-
Actions on different requests.

Where no fault is queued, an action reads its own request and, to write a flag, the entry
of that flag.  An action on another request that writes no such entry leaves both, so the
effect of each is the same whether the other came before it or not, and the two effects
can be put on the store in either order.  All that the other can take from an apply is to
be the one that creates the project of its flag.
-/

namespace FlagGovernance

namespace Effect

variable {effect other : Effect} {id id' : Uuid} {s : Store}

theorem request?_onto_of_ne (effect : Effect) (s : Store) (hid : id' ≠ id) :
    (effect.onto id s).request? id' = s.request? id' :=
  s.requests.find?_insert_of_ne hid _

theorem listReviews_onto_of_ne (effect : Effect) (s : Store) (hid : id' ≠ id) :
    (effect.onto id s).listReviews id' = s.listReviews id' := by
  have hfind : (effect.onto id s).reviews.find? id' = s.reviews.find? id' := by
    rw [onto]
    cases effect.review? with
    | none => rfl
    | some review => exact s.reviews.find?_insert_of_ne hid _
  rw [Store.listReviews, hfind, Store.listReviews]

theorem find?_onto_of_ne {key : FlagId} (hkey : ∀ flag ∈ effect.flag?, key ≠ flag.id)
    (id : Uuid) (s : Store) : (effect.onto id s).flags.find? key = s.flags.find? key := by
  cases hflag : effect.flag? with
  | none => simp only [onto, hflag]
  | some flag =>
      simp only [onto, hflag]
      exact s.flags.find?_insert_of_ne (hkey flag hflag) flag

/-- Effects on different requests that write different flags can be put on a store in
either order. -/
theorem onto_comm (hids : id ≠ id')
    (hflags : ∀ flag ∈ effect.flag?, ∀ flag' ∈ other.flag?, flag.id ≠ flag'.id) (s : Store) :
    other.onto id' (effect.onto id s) = effect.onto id (other.onto id' s) := by
  have hreviews := listReviews_onto_of_ne effect s hids.symm
  have hreviews' := listReviews_onto_of_ne other s hids
  rw [onto, hreviews, eq_comm, onto, hreviews', eq_comm]
  simp only [onto, Store.mk.injEq]
  refine ⟨?_, ?_, ?_, ?_⟩
  · cases effect.flag? with
    | none => rfl
    | some flag =>
        cases other.flag? with
        | none => rfl
        | some flag' => exact s.projects.insert_comm (fun _ => rfl)
  · cases hflag : effect.flag? with
    | none => rfl
    | some flag =>
        cases hflag' : other.flag? with
        | none => rfl
        | some flag' =>
            have hne := hflags flag hflag flag' hflag'
            exact s.flags.insert_comm (fun heq => absurd heq hne)
  · exact s.requests.insert_comm (fun heq => absurd heq hids)
  · cases effect.review? with
    | none => rfl
    | some review =>
        cases other.review? with
        | none => rfl
        | some review' => exact s.reviews.insert_comm (fun heq => absurd heq hids)

theorem contains_onto (effect : Effect) (id : Uuid) (s : Store) (project : String) :
    (effect.onto id s).projects.contains project =
      (s.projects.contains project || effect.flag?.any (fun flag => flag.project = project)) := by
  cases hflag : effect.flag? with
  | none => simp only [onto, hflag, Option.any_none, Bool.or_false]
  | some flag =>
      simp only [onto, hflag, Option.any_some, OrderedMap.contains, OrderedMap.find?_insert]
      by_cases hsame : project = flag.project
      · simp [hsame]
      · simp [hsame, Ne.symm hsame]

/-- Whether a project is created is the same after another effect, unless both need one
project that is not there. -/
theorem creates_onto (effect other : Effect) (id id' : Uuid) (s : Store) :
    (effect.creates (other.onto id' s) = effect.creates s ∧
      other.creates (effect.onto id s) = other.creates s) ∨
    ∃ flag flag', effect.flag? = some flag ∧ other.flag? = some flag' ∧
      flag.project = flag'.project ∧ effect.creates s = true ∧ other.creates s = true ∧
      effect.creates (other.onto id' s) = false ∧ other.creates (effect.onto id s) = false := by
  cases hflag : effect.flag? with
  | none => simp [creates, contains_onto, hflag]
  | some flag =>
      cases hflag' : other.flag? with
      | none => simp [creates, contains_onto, hflag, hflag']
      | some flag' =>
          simp only [creates, contains_onto, hflag, hflag', Option.any_some]
          by_cases hsame : flag.project = flag'.project
          · cases hthere : s.projects.contains flag.project with
            | true => simp [← hsame, hthere]
            | false => exact .inr ⟨flag, flag', rfl, rfl, hsame, by simp [← hsame, hthere]⟩
          · simp [hsame, Ne.symm hsame]

/-- The change that an effect with a flag tells. -/
theorem exists_change_of_flag? {flag : StoredFlag} (hflag : effect.flag? = some flag) :
    ∃ change : AppliedChange, change.flag = some flag ∧
      ∀ created, effect.answer created = .applied { change with projectCreated := created } := by
  cases effect with
  | reviewed | cancelled => contradiction
  | applied request found previous =>
      exact ⟨⟨request, found, previous, false⟩, hflag, fun _ => rfl⟩

variable {result result' : Except WorkflowError Effect}

theorem settle_comm (hids : id ≠ id')
    (hflags : ∀ effect, result = .ok effect → ∀ other, result' = .ok other →
      ∀ flag ∈ effect.flag?, ∀ flag' ∈ other.flag?, flag.id ≠ flag'.id) (s : Store) :
    settle result' id' (settle result id s) = settle result id (settle result' id' s) := by
  cases result with
  | error e => rfl
  | ok effect =>
      cases result' with
      | error e => rfl
      | ok other => exact onto_comm hids (hflags effect rfl other rfl) s

/-- Each answer is the same over the store that the other action leaves, but for the
creation of a project that both need. -/
theorem tell_settle (result result' : Except WorkflowError Effect) (id id' : Uuid) (s : Store) :
    (tell result (settle result' id' s) = tell result s ∧
      tell result' (settle result id s) = tell result' s) ∨
    ∃ (change change' : AppliedChange) (flag flag' : StoredFlag),
      change.flag = some flag ∧ change'.flag = some flag' ∧ flag.project = flag'.project ∧
      tell result s = .ok (.applied { change with projectCreated := true }) ∧
      tell result' s = .ok (.applied { change' with projectCreated := true }) ∧
      tell result (settle result' id' s) =
        .ok (.applied { change with projectCreated := false }) ∧
      tell result' (settle result id s) =
        .ok (.applied { change' with projectCreated := false }) := by
  cases result with
  | error e => cases result' with | error e' | ok other => exact .inl ⟨rfl, rfl⟩
  | ok effect =>
      cases result' with
      | error e => exact .inl ⟨rfl, rfl⟩
      | ok other =>
          simp only [tell, settle]
          rcases creates_onto effect other id id' s with ⟨hsame, hsame'⟩ |
            ⟨flag, flag', hflag, hflag', hproject, hnew, hnew', hold, hold'⟩
          · exact .inl ⟨by rw [hsame], by rw [hsame']⟩
          · obtain ⟨change, hchange, hanswer⟩ := exists_change_of_flag? hflag
            obtain ⟨change', hchange', hanswer'⟩ := exists_change_of_flag? hflag'
            refine .inr ⟨change, change', flag, flag', hchange, hchange', hproject, ?_⟩
            rw [hnew, hnew', hold, hold', hanswer, hanswer', hanswer, hanswer']
            exact ⟨rfl, rfl, rfl, rfl⟩

end Effect

namespace RequestAction

variable {policy : StalePolicy} {s : Store} {id id' : Uuid} {action : RequestAction}
  {effect : Effect}

theorem writes?_of_effectOn {request : ChangeRequest} {entry : Option StoredFlag}
    (heffect : action.effectOn policy id request entry = .ok effect) {flag : StoredFlag}
    (hflag : effect.flag? = some flag) : action.writes? request = some flag.id := by
  cases action with
  | review | cancel =>
      obtain rfl := Except.ok.inj heffect
      contradiction
  | apply actor time event =>
      rw [effectOn] at heffect
      split at heffect
      · contradiction
      · obtain rfl := Except.ok.inj heffect
        contradiction
      · next write hwrite =>
        split at heffect
        · contradiction
        · obtain rfl := Except.ok.inj heffect
          obtain rfl := Option.some.inj hflag
          rcases Governance.flagWrite_cases hwrite with ⟨_, hnone⟩ | ⟨htype, config, _, hsome⟩
          · contradiction
          · obtain rfl := Option.some.inj hsome
            exact if_pos htype

/-- The entry that an effect writes is that of the flag that the action writes. -/
theorem writes?_of_effect (heffect : action.effect policy s id = .ok effect) {flag : StoredFlag}
    (hflag : effect.flag? = some flag) :
    ∃ request, s.request? id = some request ∧ action.writes? request = some flag.id := by
  rw [RequestAction.effect] at heffect
  cases hrequest : s.request? id with
  | none =>
      rw [hrequest] at heffect
      contradiction
  | some request =>
      simp only [hrequest] at heffect
      split at heffect
      · exact ⟨request, rfl, writes?_of_effectOn heffect hflag⟩
      · contradiction

/-- An action reads nothing that an effect on another request and another flag writes. -/
theorem effect_onto (hid : id ≠ id')
    (hkeys : ∀ request, s.request? id = some request → ∀ key,
      action.writes? request = some key → ∀ flag ∈ effect.flag?, key ≠ flag.id) :
    action.effect policy (effect.onto id' s) id = action.effect policy s id := by
  rw [RequestAction.effect, RequestAction.effect, effect.request?_onto_of_ne s hid]
  cases hrequest : s.request? id with
  | none => rfl
  | some request =>
      have hentry : (action.writes? request).bind (effect.onto id' s).flags.find? =
          (action.writes? request).bind s.flags.find? := by
        cases hwrites : action.writes? request with
        | none => rfl
        | some key => exact Effect.find?_onto_of_ne (hkeys request hrequest key hwrites) id' s
      simp only [hentry]

/-- The same over a store that another action leaves. -/
theorem effect_settle {other : RequestAction} (hid : id ≠ id')
    (hkeys : ∀ request request', s.request? id = some request → s.request? id' = some request' →
      ∀ key, action.writes? request = some key → other.writes? request' ≠ some key) :
    action.effect policy (Effect.settle (other.effect policy s id') id' s) id =
      action.effect policy s id := by
  cases hother : other.effect policy s id' with
  | error e => rfl
  | ok effect =>
      apply effect_onto hid
      intro request hrequest key hkey flag hflag hsame
      obtain ⟨request', hrequest', hwrites⟩ := writes?_of_effect hother hflag
      exact hkeys request request' hrequest hrequest' key hkey (hsame ▸ hwrites)

end RequestAction

namespace Governance

/-- Two actions on different requests that do not apply both to one flag can be done in
either order, under either policy and at the times and under the ids that each is given:
the store in the end is the same, and so are the answers or refusals.  Only, where both
apply a flag to a project that is not there, it is the first of them that creates it. -/
theorem independent_actions_commute {g : Governance} (hfaults : g.faults = [])
    {x y : RequestAction} {i j : Uuid} (hids : i ≠ j)
    (hkeys : ∀ request request', g.store.request? i = some request →
      g.store.request? j = some request' →
      ∀ key, x.writes? request = some key → y.writes? request' ≠ some key) :
    let afterX := g.after (x.on i)
    let afterY := g.after (y.on j)
    (afterX.after (y.on j)).store = (afterY.after (x.on i)).store ∧
    (((afterY.perform (x.on i)).1 = (g.perform (x.on i)).1 ∧
        (afterX.perform (y.on j)).1 = (g.perform (y.on j)).1) ∨
      ∃ (change change' : AppliedChange) (flag flag' : StoredFlag),
        change.flag = some flag ∧ change'.flag = some flag' ∧ flag.project = flag'.project ∧
        (g.perform (x.on i)).1 = .ok (.applied { change with projectCreated := true }) ∧
        (g.perform (y.on j)).1 = .ok (.applied { change' with projectCreated := true }) ∧
        (afterY.perform (x.on i)).1 = .ok (.applied { change with projectCreated := false }) ∧
        (afterX.perform (y.on j)).1 =
          .ok (.applied { change' with projectCreated := false })) := by
  intro afterX afterY
  have hfaultsX : afterX.faults = [] := after_no_faults (by rw [x.kind_on]; decide) hfaults
  have hfaultsY : afterY.faults = [] := after_no_faults (by rw [y.kind_on]; decide) hfaults
  obtain ⟨hanswerX, hstoreX⟩ : g.Enacts i (g.perform (x.on i)) _ := enacts_effect hfaults x i
  obtain ⟨hanswerY, hstoreY⟩ : g.Enacts j (g.perform (y.on j)) _ := enacts_effect hfaults y j
  obtain ⟨hanswerX', hstoreX'⟩ := enacts_effect hfaultsY x i
  obtain ⟨hanswerY', hstoreY'⟩ := enacts_effect hfaultsX y j
  have hstoreX : afterX.store = _ := hstoreX
  have hstoreY : afterY.store = _ := hstoreY
  have hpolicyX : afterX.policy = g.policy := g.after_policy _
  have hpolicyY : afterY.policy = g.policy := g.after_policy _
  -- each comes to the same after the other
  rw [hpolicyY, hstoreY, RequestAction.effect_settle hids hkeys] at hanswerX' hstoreX'
  rw [hpolicyX, hstoreX, RequestAction.effect_settle hids.symm
    (fun request request' hj hi key hy hx => hkeys request' request hi hj key hx hy)]
    at hanswerY' hstoreY'
  have happart : ∀ effect, x.effect g.policy g.store i = .ok effect →
      ∀ other, y.effect g.policy g.store j = .ok other →
      ∀ flag ∈ effect.flag?, ∀ flag' ∈ other.flag?, flag.id ≠ flag'.id := by
    intro effect heffect other hother flag hflag flag' hflag' hsame
    obtain ⟨request, hrequest, hwrites⟩ := RequestAction.writes?_of_effect heffect hflag
    obtain ⟨request', hrequest', hwrites'⟩ := RequestAction.writes?_of_effect hother hflag'
    exact hkeys request request' hrequest hrequest' flag.id hwrites (hsame ▸ hwrites')
  constructor
  · exact hstoreY'.trans ((Effect.settle_comm hids happart g.store).trans hstoreX'.symm)
  · rw [hanswerX, hanswerY, hanswerX', hanswerY']
    exact Effect.tell_settle _ _ i j g.store

end Governance

/-- A proposal for another flag of the project. -/
def Sample.payProposal : Proposal := { Sample.proposal with flagKey := "pay" }

namespace Governance

/-- Two flags are applied to a project that is not there: whichever comes first creates
it. -/
theorem applies_to_new_project_commute :
    let g := Sample.governance.run
      [.create Sample.proposal Sample.actor (Sample.stamp 1) (Sample.stamp 2),
       .create Sample.payProposal Sample.actor (Sample.stamp 3) (Sample.stamp 4)]
    let x := RequestAction.apply Sample.actor Sample.moment (Sample.stamp 5)
    let y := RequestAction.apply Sample.actor Sample.moment (Sample.stamp 6)
    let afterX := g.after (x.on (.ofNat 1))
    let afterY := g.after (y.on (.ofNat 3))
    g.faults = [] ∧ Uuid.ofNat 1 ≠ .ofNat 3 ∧
      (∀ request request', g.store.request? (.ofNat 1) = some request →
        g.store.request? (.ofNat 3) = some request' →
        ∀ key, x.writes? request = some key → y.writes? request' ≠ some key) ∧
      (afterX.after (y.on (.ofNat 3))).store = (afterY.after (x.on (.ofNat 1))).store ∧
      ∃ change : AppliedChange,
        (g.perform (x.on (.ofNat 1))).1 = .ok (.applied { change with projectCreated := true }) ∧
        (afterY.perform (x.on (.ofNat 1))).1 =
          .ok (.applied { change with projectCreated := false }) := by
  intro g x y afterX afterY
  have hids : Uuid.ofNat 1 ≠ .ofNat 3 := by decide
  have hkeys : ∀ request request', g.store.request? (.ofNat 1) = some request →
      g.store.request? (.ofNat 3) = some request' →
      ∀ key, x.writes? request = some key → y.writes? request' ≠ some key := by
    intro request request' hrequest hrequest' key hx hy
    obtain rfl : Sample.proposal.opened Sample.actor (Sample.stamp 1) none = request :=
      Option.some.inj hrequest
    obtain rfl : Sample.payProposal.opened Sample.actor (Sample.stamp 3) none = request' :=
      Option.some.inj hrequest'
    obtain rfl : (⟨"web", "checkout"⟩ : FlagId) = key := Option.some.inj hx
    exact absurd (Option.some.inj hy) (by decide)
  obtain ⟨hstore, hanswers⟩ := independent_actions_commute (g := g) rfl (x := x) (y := y) hids hkeys
  refine ⟨rfl, hids, hkeys, hstore, ?_⟩
  rcases hanswers with ⟨hsame, _⟩ | ⟨change, _, _, _, _, _, _, hfirst, _, hsecond, _⟩
  · have hnew : ((x.on (.ofNat 1)).applied? (g.perform (x.on (.ofNat 1))).1).map
        AppliedChange.projectCreated = some true := by decide +kernel
    have hold : ((x.on (.ofNat 1)).applied? (afterY.perform (x.on (.ofNat 1))).1).map
        AppliedChange.projectCreated = some false := by decide +kernel
    rw [hsame, hnew] at hold
    contradiction
  · exact ⟨change, hfirst, hsecond⟩

end Governance

end FlagGovernance
