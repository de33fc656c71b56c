import FlagGovernance.Proofs.Audit.FlagEvent
import FlagGovernance.Proofs.Audit.Turns
import Mathlib.Data.List.Chain
/-
The events of applied flags, one after the other.

The events of one key make a chain: the first goes from nothing, each other from
where the one before it led, and the last leads to the entry in force.  An event says
that its project is new just if no earlier one is of a flag of the project.
-/

namespace FlagGovernance

namespace AuditEvent

/-- The later event tells that the entry of the earlier one was replaced. -/
def Precedes (earlier later : AuditEvent) : Prop :=
  ∃ flag, earlier.TellsEntry flag ∧ later.TellsPrevious (some flag)

/-- The events lead from nothing to the entry, one write after the other. -/
structure LeadTo (events : List AuditEvent) (entry : Option StoredFlag) : Prop where
  /-- The revisions that the events tell count from one. -/
  revisions : events.map (metadata? "revision") =
    (List.range' 1 events.length).map (fun n => some (.ofNat n))
  first : ∀ event ∈ events.head?, event.TellsPrevious none
  linked : events.IsChain Precedes
  /-- The last event tells the entry; there is none just if the key is unbound. -/
  last : Option.Rel TellsEntry events.getLast? entry
  count : revisionOf entry = events.length

/-- The event tells of an applied flag, and none of the earlier ones does of the same
project. -/
def OpensProject (event : AuditEvent) (earlier : List AuditEvent) : Prop :=
  ∃ project, event.appliedProject? = some project ∧
    ∀ other ∈ earlier, other.appliedProject? ≠ some project

namespace LeadTo

theorem nil : LeadTo [] none where
  revisions := rfl
  first event hfirst := absurd hfirst (Option.not_mem_none event)
  linked := .nil
  last := .none
  count := rfl

/-- A write over the entry to which the events lead goes on with their chain. -/
theorem concat {events : List AuditEvent} {previous : Option StoredFlag}
    (hlead : LeadTo events previous) {event : AuditEvent} {flag : StoredFlag}
    (hprevious : event.TellsPrevious previous) (hentry : event.TellsEntry flag)
    (hnext : flag.revision = revisionOf previous + 1) :
    LeadTo (events ++ [event]) (some flag) where
  revisions := by
    rw [List.map_append, hlead.revisions, List.length_append, List.length_singleton,
      List.range'_1_concat, List.map_append, List.map_singleton, List.map_singleton,
      hentry.revision, hnext, hlead.count, Nat.add_comm]
  first := by
    intro first hfirst
    cases events with
    | nil =>
        obtain rfl : event = first := Option.some.inj hfirst
        have hlast := hlead.last
        cases hlast
        exact hprevious
    | cons oldest rest => exact hlead.first first hfirst
  linked := by
    apply hlead.linked.append (.singleton event)
    intro earlier hearlier later hlater
    obtain rfl : event = later := Option.some.inj hlater
    have hlast := hlead.last
    rw [Option.mem_def.1 hearlier] at hlast
    cases hlast with
    | some htells => exact ⟨_, htells, hprevious⟩
  last := by
    rw [List.getLast?_concat]
    exact .some hentry
  count := by
    rw [revisionOf_some, hnext, hlead.count, List.length_append, List.length_singleton]

end LeadTo

end AuditEvent

/-- The events of the flag of a key that was applied. -/
def flagEvents (key : FlagId) (events : List AuditEvent) : List AuditEvent :=
  events.filter (fun event => event.appliedKey? = some key)

theorem flagEvents_concat_of_eq {key : FlagId} {event : AuditEvent}
    (hkey : event.appliedKey? = some key) (events : List AuditEvent) :
    flagEvents key (events ++ [event]) = flagEvents key events ++ [event] := by
  simp [flagEvents, hkey]

theorem flagEvents_concat_of_ne {key : FlagId} {event : AuditEvent}
    (hkey : event.appliedKey? ≠ some key) (events : List AuditEvent) :
    flagEvents key (events ++ [event]) = flagEvents key events := by
  simp [flagEvents, hkey]

/-- What is so at each place in a list, and of one more element at its end, is so at
each place in the longer list. -/
theorem forall_place_concat {α : Type} {P : List α → α → Prop} {l : List α} {a : α}
    (hl : ∀ before x after, l = before ++ x :: after → P before x) (ha : P l a) :
    ∀ before x after, l ++ [a] = before ++ x :: after → P before x := by
  intro before x after hplace
  rcases List.eq_nil_or_concat after with rfl | ⟨rest, b, rfl⟩
  · obtain ⟨rfl, hlast⟩ := List.append_inj' hplace rfl
    obtain rfl : a = x := List.singleton_inj.1 hlast
    exact ha
  · rw [List.concat_eq_append, ← List.cons_append, ← List.append_assoc] at hplace
    exact hl before x rest (List.append_inj' hplace rfl).1

namespace Store

/-- Flags, projects and the requests that stand applied are as before. -/
structure SameFlags (s s' : Store) : Prop where
  flags : s'.flags = s.flags
  projects : s'.projects = s.projects
  applied : ∀ key, (s'.appliedTo key).Perm (s.appliedTo key)

/-- A request was applied to its flag, and the event tells all of it. -/
structure ShowsWrite (s : Store) (request : ChangeRequest) (write : FlagWrite) (now : Instant)
    (event : AuditEvent) (s' : Store) : Prop where
  target : request.appliedTo write.id = true
  about : event.resourceId = request.id.text
  key : event.appliedKey? = some write.id
  previous : event.TellsPrevious (s.flags.find? write.id)
  entry : event.TellsEntry (write.entry (s.flags.find? write.id) now)
  created : event.metadata? "projectCreated" =
    some (.bool (!s.projects.contains write.project))
  flags : s'.flags = (s.withFlagWrite (some write) now).flags
  projects : s'.projects = s.projects.insert write.project ()
  applied : ∀ key, (s'.appliedTo key).Perm
    ([request].filter (ChangeRequest.appliedTo key) ++ s.appliedTo key)

/-- What becomes of flags and projects, and the event that tells of it. -/
inductive TellsFlags (s : Store) : List AuditEvent → Store → Prop
  | kept (event? : Option AuditEvent) (s' : Store) (hquiet : ∀ event ∈ event?, event.Quiet)
      (hsame : s.SameFlags s') : TellsFlags s event?.toList s'
  | written (event : AuditEvent) (s' : Store) (request : ChangeRequest) (write : FlagWrite)
      (now : Instant) (hshows : s.ShowsWrite request write now event s') :
      TellsFlags s [event] s'

theorem tellsFlags_silent (s : Store) : s.TellsFlags [] s := by
  refine .kept none s (fun event hevent => ?_) ⟨rfl, rfl, fun _ => .refl _⟩
  exact absurd hevent (Option.not_mem_none event)

/-- A request put over one that is not applied, neither itself applied to a flag. -/
theorem tellsFlags_of_request_put {s s' : Store} {event : AuditEvent} (hevent : event.Quiet)
    {id : Uuid} {request : ChangeRequest}
    (hopen : ∀ found, s.request? id = some found → found.status ≠ .applied)
    (hapart : ∀ key, request.appliedTo key = false)
    (hrequests : s'.requests = (s.withRequest id request).requests) (hflags : s'.flags = s.flags)
    (hprojects : s'.projects = s.projects) : s.TellsFlags [event] s' := by
  refine .kept (some event) s' (fun other hother => ?_) ⟨hflags, hprojects, fun key => ?_⟩
  · obtain rfl : event = other := Option.some.inj hother
    exact hevent
  · rw [appliedTo, hrequests]
    exact appliedTo_withRequest_perm_of_apart rfl hopen (hapart key)

/-- The event of an applied flag shows the write. -/
theorem showsWrite_appliedEvent {s : Store} {id : Uuid} {request : ChangeRequest}
    (hopen : ∀ found, s.request? id = some found → found.status ≠ .applied)
    (htype : request.resourceType = .flag) {write : FlagWrite} (hkey : request.key = write.id)
    (event : Stamp) (actor : Actor) (time : Instant) :
    s.ShowsWrite (request.applied actor time) write time
      (Governance.appliedEvent event actor
        (s.appliedChange request (applyCommit (some write) actor time)))
      ((s.withFlagWrite (some write) time).withRequest id (request.applied actor time)) := by
  let change := s.appliedChange request (applyCommit (some write) actor time)
  have hafter : change.request.resourceType = .flag := htype
  have hflag : change.flag = some (write.entry (s.flags.find? write.id) time) := rfl
  have hproject : change.request.project = write.project := congrArg FlagId.project hkey
  obtain ⟨htold, hprevious, hentry, hcreated⟩ :=
    Governance.appliedEvent_tells event actor hafter hflag
  rw [hproject] at htold
  refine ⟨?_, ?_, htold, hprevious, hentry, hcreated, rfl, rfl, fun key => ?_⟩
  · exact decide_eq_true ⟨htype, rfl, hkey⟩
  · obtain ⟨changes, metadata, hevent⟩ := Governance.appliedEvent_eq event actor change
    rw [hevent]
    rfl
  · exact appliedTo_withRequest_perm rfl hopen _ key

namespace ShowsWrite

variable {s s' : Store} {request : ChangeRequest} {write : FlagWrite} {now : Instant}
  {event : AuditEvent} {key : FlagId}

theorem appliedProject?_eq (hshows : s.ShowsWrite request write now event s') :
    event.appliedProject? = some write.project := by
  rw [AuditEvent.appliedProject?, hshows.key]
  rfl

theorem flagEvents_of_ne (hshows : s.ShowsWrite request write now event s')
    (hne : key ≠ write.id) (events : List AuditEvent) :
    flagEvents key (events ++ [event]) = flagEvents key events := by
  apply flagEvents_concat_of_ne
  rw [hshows.key]
  intro heq
  exact hne (Option.some.inj heq).symm

theorem find?_self (hshows : s.ShowsWrite request write now event s') :
    s'.flags.find? write.id = some (write.entry (s.flags.find? write.id) now) := by
  rw [hshows.flags, find?_withFlagWrite_self]

theorem find?_of_ne (hshows : s.ShowsWrite request write now event s') (hne : key ≠ write.id) :
    s'.flags.find? key = s.flags.find? key := by
  rw [hshows.flags]
  apply find?_withFlagWrite_of_ne
  intro w hw
  obtain rfl : write = w := Option.some.inj hw
  exact hne.symm

theorem appliedTo_self (hshows : s.ShowsWrite request write now event s') :
    (s'.appliedTo write.id).Perm (request :: s.appliedTo write.id) := by
  have hperm := hshows.applied write.id
  rw [List.filter_cons_of_pos hshows.target] at hperm
  exact hperm

theorem appliedTo_of_ne (hshows : s.ShowsWrite request write now event s')
    (hne : key ≠ write.id) : (s'.appliedTo key).Perm (s.appliedTo key) := by
  have hapart : ¬ request.appliedTo key = true := by
    intro hto
    have htarget := hshows.target
    simp only [ChangeRequest.appliedTo, decide_eq_true_eq] at hto htarget
    exact hne (hto.2.2.symm.trans htarget.2.2)
  have hperm := hshows.applied key
  rw [List.filter_cons_of_neg hapart] at hperm
  exact hperm

theorem contains_iff (hshows : s.ShowsWrite request write now event s') (project : String) :
    s'.projects.contains project = true ↔
      s.projects.contains project = true ∨ write.project = project := by
  rw [hshows.projects, OrderedMap.contains, OrderedMap.find?_insert]
  by_cases hthis : project = write.project
  · simp [hthis]
  · rw [if_neg hthis, ← OrderedMap.contains]
    simp [Ne.symm hthis]

end ShowsWrite

/-- The events account for all that was applied to flags. -/
structure FlagsToldBy (s : Store) (events : List AuditEvent) : Prop where
  /-- Those of a key lead to its entry. -/
  entries : ∀ key, AuditEvent.LeadTo (flagEvents key events) (s.flags.find? key)
  /-- They are about the requests that stand applied to it, one about each. -/
  requests : ∀ key, ((flagEvents key events).map AuditEvent.resourceId).Perm
    ((s.appliedTo key).map (fun request => request.id.text))
  /-- The projects are those of the events. -/
  projects : ∀ project, s.projects.contains project = true ↔
    ∃ event ∈ events, event.appliedProject? = some project
  /-- An event tells that its project was created just if it is the first of it. -/
  created : ∀ earlier event later, events = earlier ++ event :: later →
    (event.metadata? "projectCreated" = some (.bool true) ↔ event.OpensProject earlier)

namespace FlagsToldBy

theorem empty : Store.empty.FlagsToldBy [] where
  entries _ := .nil
  requests _ := .nil
  projects project := iff_of_false Bool.false_ne_true (by simp)
  created earlier event later hplace := by simp at hplace

variable {s s' : Store} {events : List AuditEvent}

theorem of_same (htold : s.FlagsToldBy events) (hsame : s.SameFlags s') :
    s'.FlagsToldBy events where
  entries key := hsame.flags ▸ htold.entries key
  requests key := (htold.requests key).trans ((hsame.applied key).map _).symm
  projects project := hsame.projects ▸ htold.projects project
  created := htold.created

/-- An event that tells of no flag changes nothing of what the others tell. -/
theorem concat_quiet (htold : s.FlagsToldBy events) {event : AuditEvent} (hquiet : event.Quiet) :
    s.FlagsToldBy (events ++ [event]) := by
  have hproject : event.appliedProject? = none := by
    rw [AuditEvent.appliedProject?, hquiet.key, Option.map_none]
  have hevents (key : FlagId) : flagEvents key (events ++ [event]) = flagEvents key events := by
    apply flagEvents_concat_of_ne
    rw [hquiet.key]
    exact (Option.some_ne_none key).symm
  refine ⟨?_, ?_, ?_, forall_place_concat htold.created ?_⟩
  · intro key
    rw [hevents]
    exact htold.entries key
  · intro key
    rw [hevents]
    exact htold.requests key
  · intro project
    rw [htold.projects]
    simp [hproject]
  · simp [hquiet.projectCreated, AuditEvent.OpensProject, hproject]

/-- The event of an applied flag goes on with the chain of its key. -/
theorem concat_written (htold : s.FlagsToldBy events) {request : ChangeRequest}
    {write : FlagWrite} {now : Instant} {event : AuditEvent}
    (hshows : s.ShowsWrite request write now event s') : s'.FlagsToldBy (events ++ [event]) := by
  have hproject := hshows.appliedProject?_eq
  refine ⟨?_, ?_, ?_, forall_place_concat htold.created ?_⟩
  · intro key
    by_cases hthis : key = write.id
    · subst hthis
      rw [flagEvents_concat_of_eq hshows.key, hshows.find?_self]
      exact (htold.entries write.id).concat hshows.previous hshows.entry rfl
    · rw [hshows.flagEvents_of_ne hthis, hshows.find?_of_ne hthis]
      exact htold.entries key
  · intro key
    by_cases hthis : key = write.id
    · subst hthis
      rw [flagEvents_concat_of_eq hshows.key, List.map_append, List.map_singleton, hshows.about]
      refine .trans ?_ (hshows.appliedTo_self.map _).symm
      exact (List.perm_append_singleton _ _).trans ((htold.requests write.id).cons _)
    · rw [hshows.flagEvents_of_ne hthis]
      exact (htold.requests key).trans ((hshows.appliedTo_of_ne hthis).map _).symm
  · intro project
    rw [hshows.contains_iff, htold.projects]
    simp [hproject]
  · rw [hshows.created]
    have hnew : s.projects.contains write.project = false ↔ event.OpensProject events := by
      rw [← Bool.not_eq_true, htold.projects]
      simp [AuditEvent.OpensProject, hproject]
    simpa using hnew

theorem tells (htold : s.FlagsToldBy events) {more : List AuditEvent}
    (htells : s.TellsFlags more s') : s'.FlagsToldBy (events ++ more) := by
  cases htells with
  | kept event? _ hquiet hsame =>
      cases event? with
      | none =>
          rw [Option.toList_none, List.append_nil]
          exact htold.of_same hsame
      | some event => exact (htold.of_same hsame).concat_quiet (hquiet event rfl)
  | written event _ request write now hshows => exact htold.concat_written hshows

end FlagsToldBy

end Store

namespace Governance

/-- Every operation by way of the workflow tells what it does to flags. -/
theorem after_tellsFlags (g : Governance) {op : Operation} (hgoverned : op.governed = true) :
    g.store.TellsFlags (g.eventsBy op) (g.after op).store := by
  have hperformed := g.performed op
  rw [eventsBy]
  generalize (g.perform op).1 = outcome, g.after op = g' at hperformed ⊢
  cases hperformed with
  | refused error hsame =>
      rw [hsame.store_eq]
      exact g.store.tellsFlags_silent
  | answered answer hkind _ hsame =>
      dsimp only
      rw [g.eventOf_of_kind (by rw [hkind]; decide), hsame.store_eq]
      exact g.store.tellsFlags_silent
  | injected => exact g.store.tellsFlags_silent
  | created p author stamp event hcheck hfree request hopened =>
      have hopen : ∀ found, g.store.request? stamp.id = some found → found.status ≠ .applied := by
        intro found hfound
        rw [hfree] at hfound
        contradiction
      have hpending : request.status ≠ .applied := by simp [hopened, Proposal.opened]
      exact Store.tellsFlags_of_request_put (createdEvent_quiet event author request) hopen
        (ChangeRequest.appliedTo_of_ne_applied hpending) rfl rfl rfl
  | reviewed id decision reviewer comment stamp event request hrequest hpending review hreview
      updated hupdated =>
      have hopen : request.status.isTerminal = false := by rw [hpending]; rfl
      have hstatus : updated.status ≠ .applied := by
        subst hreview hupdated
        exact ChangeRequest.status_reviewed_ne_applied hopen _
      exact Store.tellsFlags_of_request_put (reviewedEvent_quiet event updated review)
        (Store.ne_applied_of_open hrequest hopen) (ChangeRequest.appliedTo_of_ne_applied hstatus)
        rfl rfl rfl
  | cancelled id actor time event request hrequest hopen updated hupdated =>
      have hstatus : updated.status ≠ .applied := by simp [hupdated, ChangeRequest.moved]
      simp only [eventOf, hrequest]
      exact Store.tellsFlags_of_request_put
        (cancelledEvent_quiet event actor request.status updated)
        (Store.ne_applied_of_open hrequest hopen) (ChangeRequest.appliedTo_of_ne_applied hstatus)
        rfl rfl rfl
  | applied id actor time event request flag hrequest hstatus hwrite hverify change hchange =>
      have hopen := Store.ne_applied_of_open hrequest (ChangeRequest.open_of_canApply hstatus)
      subst hchange
      rw [announce_store]
      rcases flagWrite_cases hwrite with ⟨hother, rfl⟩ | ⟨hflag, config, _, rfl⟩
      · have hapart (key : FlagId) : (request.applied actor time).appliedTo key = false := by
          simp [ChangeRequest.appliedTo, ChangeRequest.applied, hother]
        exact Store.tellsFlags_of_request_put (appliedEvent_quiet event actor hother rfl) hopen
          hapart rfl rfl rfl
      · exact .written _ _ _ _ time (Store.showsWrite_appliedEvent hopen hflag rfl event actor time)
  | seeded | put | ensured | renamed => contradiction
  | inserted | recorded | transitioned | committed => contradiction

/-- By way of the workflow only, and with a log that has let go of nothing: the
entries of the applied flag of a key are about the requests that stand applied to it,
their revisions count from one, the first goes from nothing and each other from where
the one before it led, and the last tells the entry in force.  An entry tells that its
project was created just if it is the first of an applied flag of that project. -/
theorem applied_flags_chain (limit : Nat) (relay : RelaySignal) (policy : StalePolicy)
    {ops : List Operation} (hgoverned : ∀ op ∈ ops, op.governed = true)
    (hkept : ((start (.log (.empty limit)) relay policy).eventsOf ops).length ≤ limit) :
    let g := (start (.log (.empty limit)) relay policy).run ops
    ∃ log, g.auditLog = some log ∧
      (∀ key, ((flagEvents key log.entries).map AuditEvent.resourceId).Perm
          ((g.store.appliedTo key).map (fun request => request.id.text)) ∧
        AuditEvent.LeadTo (flagEvents key log.entries) (g.entryAt key)) ∧
      ∀ earlier event later, log.entries = earlier ++ event :: later →
        (event.metadata? "projectCreated" = some (.bool true) ↔ event.OpensProject earlier) := by
  intro g
  have htold : g.store.FlagsToldBy
      ([] ++ (start (.log (.empty limit)) relay policy).eventsOf ops) :=
    run_told (fun hop htold => htold.tells (after_tellsFlags _ hop)) .empty hgoverned
  rw [List.nil_append] at htold
  refine ⟨_, run_auditLog_of_length_le hkept, fun key => ?_, htold.created⟩
  exact ⟨htold.requests key, htold.entries key⟩

/-- Two requests are applied to a flag, the second at the second attempt, one to a
segment of the same name and one to a flag of another project. -/
theorem two_flags_chain :
    let elsewhere : Proposal := ⟨"turn on", none, .flag, "api", "search", Sample.document⟩
    let ops : List Operation :=
      [.create Sample.proposal Sample.actor (Sample.stamp 1) (Sample.stamp 2),
       .apply (.ofNat 1) Sample.actor Sample.moment (Sample.stamp 3),
       .create Sample.proposal Sample.actor (Sample.stamp 4) (Sample.stamp 5),
       .create { Sample.proposal with resourceType := .segment } Sample.actor (Sample.stamp 6)
         (Sample.stamp 7),
       .create elsewhere Sample.actor (Sample.stamp 8) (Sample.stamp 9),
       .injectFault .commitApply (.backend "down"),
       .apply (.ofNat 4) Sample.actor Sample.moment (Sample.stamp 10),
       .apply (.ofNat 8) Sample.actor Sample.moment (Sample.stamp 11),
       .apply (.ofNat 6) Sample.actor Sample.moment (Sample.stamp 12),
       .apply (.ofNat 4) Sample.actor Sample.moment (Sample.stamp 13)]
    let g := Sample.governance.run ops
    ∃ log, g.auditLog = some log ∧
      (flagEvents ⟨"web", "checkout"⟩ log.entries).map (AuditEvent.metadata? "revision") =
        [some (.ofNat 1), some (.ofNat 2)] ∧
      (flagEvents ⟨"web", "checkout"⟩ log.entries).IsChain AuditEvent.Precedes ∧
      (flagEvents ⟨"api", "search"⟩ log.entries).map (AuditEvent.metadata? "revision") =
        [some (.ofNat 1)] ∧
      flagEvents ⟨"api", "checkout"⟩ log.entries = [] := by
  intro elsewhere ops g
  have hgoverned : ∀ op ∈ ops, op.governed = true := by decide
  obtain ⟨log, hlog, hchains, _⟩ :=
    applied_flags_chain 100 .answering .rejectStale hgoverned (by decide +kernel)
  have hrevisions {key : FlagId} {n : Nat} (hrevision : revisionOf (g.entryAt key) = n) :
      (flagEvents key log.entries).map (AuditEvent.metadata? "revision") =
        (List.range' 1 n).map (fun n => some (.ofNat n)) := by
    have hlead : AuditEvent.LeadTo (flagEvents key log.entries) (g.entryAt key) :=
      (hchains key).2
    rw [← hrevision, hlead.count]
    exact hlead.revisions
  refine ⟨log, hlog, ?_, (hchains _).2.linked, ?_, ?_⟩
  · exact hrevisions (n := 2) (by decide +kernel)
  · exact hrevisions (n := 1) (by decide +kernel)
  · exact List.map_eq_nil_iff.1 (hrevisions (n := 0) (by decide +kernel))

end Governance

end FlagGovernance
