import FlagGovernance.Proofs.Config.WellFormed
import FlagGovernance.Proofs.Parting
import FlagGovernance.Proofs.Store.Representation
import Mathlib.Data.List.Nodup
/-
What a listing of requests shows.

Requests are stored under their own identifiers, so no two that are stored have the same
one, and of two stored requests one stands above the other: the newer, or of two of one
moment that with the lesser identifier.  So there is one way to list the requests that a
filter accepts, however they are gone through, and the filters of the statuses part them.
-/

namespace FlagGovernance

namespace ChangeRequest

/-- The request is newer than the other, or of the same moment and has the lesser id. -/
def Above (a b : ChangeRequest) : Prop :=
  b.createdAt.before a.createdAt = true ∨ a.createdAt = b.createdAt ∧ compare a.id b.id = .lt

/-- The order of a listing, of which `Above` is the strict part. -/
def listingOrder : ChangeRequest → ChangeRequest → Ordering :=
  compareLex (fun a b => compareOn createdAt b a) (compareOn id)

instance : Std.TransCmp listingOrder :=
  inferInstanceAs (Std.TransCmp (compareLex (fun a b => compareOn createdAt b a) (compareOn id)))

theorem listingOrder_eq_lt_iff {a b : ChangeRequest} : a.listingOrder b = .lt ↔ a.Above b := by
  simp only [listingOrder, compareLex, compareOn, Above, Instant.before, beq_iff_eq,
    Ordering.then_eq_lt]
  refine or_congr_right (and_congr_left' ?_)
  rw [Std.LawfulEqOrd.compare_eq_iff_eq]
  exact eq_comm

theorem listedBefore_eq_isLE (a b : ChangeRequest) :
    Store.listedBefore a b = (a.listingOrder b).isLE := by
  simp only [Store.listedBefore, listingOrder, compareLex, compareOn]
  cases compare b.createdAt a.createdAt with
  | lt => rfl
  | eq => cases compare a.id b.id <;> rfl
  | gt => rfl

/-- Requests with an identifier each are sorted with one strictly above the next. -/
theorem mergeSort_pairwise_above {requests : List ChangeRequest}
    (hids : (requests.map id).Nodup) :
    (requests.mergeSort Store.listedBefore).Pairwise Above := by
  have hsorted : (requests.mergeSort Store.listedBefore).Pairwise
      (fun a b => Store.listedBefore a b = true) := by
    apply List.pairwise_mergeSort
    · intro a b c hab hbc
      rw [listedBefore_eq_isLE] at hab hbc ⊢
      exact Std.TransCmp.isLE_trans hab hbc
    · intro a b
      rw [listedBefore_eq_isLE, listedBefore_eq_isLE, Bool.or_eq_true]
      cases horder : a.listingOrder b with
      | lt | eq => exact .inl rfl
      | gt => exact .inr (Std.OrientedCmp.isGE_iff_isLE.mp (horder ▸ rfl))
  have happart : (requests.mergeSort Store.listedBefore).Pairwise (fun a b => a.id ≠ b.id) :=
    List.pairwise_map.mp (((List.mergeSort_perm requests _).map id).nodup_iff.mpr hids)
  refine (hsorted.and happart).imp ?_
  rintro a b ⟨hle, hne⟩
  -- two that the order does not tell apart would have one identifier
  rw [listedBefore_eq_isLE] at hle
  rw [← listingOrder_eq_lt_iff]
  cases horder : a.listingOrder b with
  | lt => rfl
  | eq =>
      rw [listingOrder, compareLex_eq_eq] at horder
      exact absurd (Std.LawfulEqOrd.eq_of_compare horder.2) hne
  | gt =>
      rw [horder] at hle
      contradiction

/-- There is one way to list requests with each above the next. -/
theorem eq_of_pairwise_above {requests others : List ChangeRequest}
    (hrequests : requests.Pairwise Above) (hothers : others.Pairwise Above)
    (hperm : requests.Perm others) : requests = others := by
  refine hperm.eq_of_pairwise ?_ hrequests hothers
  intro a b _ _ hab hba
  rw [← listingOrder_eq_lt_iff] at hab hba
  rw [Std.OrientedCmp.gt_of_lt hab] at hba
  contradiction

end ChangeRequest

namespace Status

theorem mem_all (status : Status) : status ∈ all := by
  cases status <;> decide

theorem all_nodup : all.Nodup := by decide

end Status

theorem RequestFilter.accepts_of_status (status : Status) (search : Option String)
    (request : ChangeRequest) :
    (RequestFilter.mk (some status) search).accepts request =
      (request.status == status && (RequestFilter.mk none search).accepts request) := rfl

namespace Store

variable {s : Store} {filter : RequestFilter}

/-- The request is stored, under whatever identifier. -/
def Holds (s : Store) (request : ChangeRequest) : Prop := ∃ id, s.request? id = some request

theorem mem_values_iff_holds {request : ChangeRequest} :
    request ∈ s.requests.values ↔ s.Holds request :=
  OrderedMap.mem_values_iff

theorem mem_listRequests_iff {request : ChangeRequest} :
    request ∈ s.listRequests filter ↔ s.Holds request ∧ filter.accepts request = true := by
  rw [listRequests, List.mem_mergeSort, List.mem_filter, mem_values_iff_holds]

theorem length_listRequests :
    (s.listRequests filter).length = (s.requests.values.filter filter.accepts).length :=
  List.length_mergeSort _

theorem countPending_eq_length (s : Store) :
    s.countPending = (s.listRequests (.ofStatus .pending)).length := by
  rw [length_listRequests, countPending, List.countP_eq_length_filter]
  congr 1
  refine List.filter_congr fun request _ => ?_
  rw [RequestFilter.ofStatus, RequestFilter.accepts_of_status]
  exact (Bool.and_true _).symm

/-- Each request that is listed under no status is listed under one of them. -/
theorem sum_length_listRequests (s : Store) (search : Option String) :
    (Status.all.map (fun status => (s.listRequests ⟨some status, search⟩).length)).sum =
      (s.listRequests ⟨none, search⟩).length := by
  rw [length_listRequests, ← sum_length_filter ChangeRequest.status Status.all_nodup Status.mem_all]
  congr 1
  refine List.map_congr_left fun status _ => ?_
  rw [length_listRequests, List.filter_filter,
    funext (RequestFilter.accepts_of_status status search)]

/-- No two requests that are stored have the same identifier. -/
theorem RequestsKeyed.nodup_ids (hkeyed : s.RequestsKeyed) :
    (s.requests.values.map ChangeRequest.id).Nodup := by
  have hkeys : s.requests.values.map ChangeRequest.id = s.requests.keys := by
    rw [OrderedMap.values, OrderedMap.keys, List.map_map]
    refine List.map_congr_left fun entry hentry => ?_
    exact hkeyed entry.1 entry.2 (OrderedMap.mem_entries_iff.mp hentry)
  rw [hkeys]
  exact s.requests.keys_nodup

theorem RequestsKeyed.nodup_values (hkeyed : s.RequestsKeyed) : s.requests.values.Nodup :=
  List.Nodup.of_map _ hkeyed.nodup_ids

theorem RequestsKeyed.nodup_ids_filter (hkeyed : s.RequestsKeyed) (filter : RequestFilter) :
    ((s.requests.values.filter filter.accepts).map ChangeRequest.id).Nodup :=
  hkeyed.nodup_ids.sublist (List.filter_sublist.map ChangeRequest.id)

theorem RequestsKeyed.listRequests_nodup_ids (hkeyed : s.RequestsKeyed) (filter : RequestFilter) :
    ((s.listRequests filter).map ChangeRequest.id).Nodup :=
  ((List.mergeSort_perm _ _).map ChangeRequest.id).nodup_iff.mpr (hkeyed.nodup_ids_filter filter)

theorem RequestsKeyed.listRequests_pairwise_above (hkeyed : s.RequestsKeyed)
    (filter : RequestFilter) : (s.listRequests filter).Pairwise ChangeRequest.Above :=
  ChangeRequest.mergeSort_pairwise_above (hkeyed.nodup_ids_filter filter)

/-- Whatever the row in which the stored requests are gone through, the listing is the
same. -/
theorem RequestsKeyed.listRequests_eq (hkeyed : s.RequestsKeyed) (filter : RequestFilter)
    {stored : List ChangeRequest} (hnodup : stored.Nodup)
    (hstored : ∀ request, request ∈ stored ↔ s.Holds request) :
    (stored.filter filter.accepts).mergeSort listedBefore = s.listRequests filter := by
  have hperm : stored.Perm s.requests.values :=
    (List.perm_ext_iff_of_nodup hnodup hkeyed.nodup_values).mpr fun request =>
      (hstored request).trans mem_values_iff_holds.symm
  have haccepted := hperm.filter filter.accepts
  have hids := (haccepted.map ChangeRequest.id).nodup_iff.mpr (hkeyed.nodup_ids_filter filter)
  refine ChangeRequest.eq_of_pairwise_above (ChangeRequest.mergeSort_pairwise_above hids)
    (hkeyed.listRequests_pairwise_above filter) ?_
  exact (List.mergeSort_perm _ _).trans (haccepted.trans (List.mergeSort_perm _ _).symm)

end Store

namespace Governance

/-- In every store that is reached from the empty one, by whatever is asked of the
workflow or straight of the store: a listing shows just the stored requests that its
filter accepts, each once, the newer above the older and of one moment the lesser id
above the greater; it is told by which requests are stored, in whatever row they are gone
through and by whatever way the store was reached.  As many are pending as are listed as
pending, and the listings by status come to the listing without one. -/
theorem requests_listed_in_order (sink : AuditSink) (relay : RelaySignal) (policy : StalePolicy)
    (ops : List Operation) (filter : RequestFilter) :
    let s := ((start sink relay policy).run ops).store
    (∀ request, request ∈ s.listRequests filter ↔
      s.Holds request ∧ filter.accepts request = true) ∧
    ((s.listRequests filter).map ChangeRequest.id).Nodup ∧
    (s.listRequests filter).Pairwise ChangeRequest.Above ∧
    (∀ stored : List ChangeRequest, stored.Nodup →
      (∀ request, request ∈ stored ↔ s.Holds request) →
      (stored.filter filter.accepts).mergeSort Store.listedBefore = s.listRequests filter) ∧
    (∀ sink' relay' policy' ops', let s' := ((start sink' relay' policy').run ops').store
      (∀ request, s'.Holds request ↔ s.Holds request) →
      s'.listRequests filter = s.listRequests filter) ∧
    s.countPending = (s.listRequests (.ofStatus .pending)).length ∧
    (Status.all.map (fun status => (s.listRequests (.ofStatus status)).length)).sum =
      (s.listRequests .everything).length := by
  intro s
  have hkeyed : s.RequestsKeyed := (run_coherent sink relay policy ops).requests
  refine ⟨fun _ => Store.mem_listRequests_iff, hkeyed.listRequests_nodup_ids filter,
    hkeyed.listRequests_pairwise_above filter,
    fun stored hnodup hstored => hkeyed.listRequests_eq filter hnodup hstored, ?_,
    s.countPending_eq_length, s.sum_length_listRequests none⟩
  intro sink' relay' policy' ops' s' hsame
  have hkeyed' : s'.RequestsKeyed := (run_coherent sink' relay' policy' ops').requests
  exact hkeyed.listRequests_eq filter hkeyed'.nodup_values fun request =>
    Store.mem_values_iff_holds.trans (hsame request)

end Governance

/-- Two requests of one moment and a later one, put in in different orders. -/
theorem three_requests_listed_alike :
    let later : Instant := ⟨⟨2024, 1, 2, by decide⟩, 0, 0, by decide⟩
    let a := Sample.proposal.opened Sample.actor (Sample.stamp 1) none
    let b := Sample.proposal.opened Sample.actor (Sample.stamp 2) none
    let c := Sample.proposal.opened Sample.actor ⟨later, .ofNat 3⟩ none
    let empty := Governance.start .absent .absent .lastWriteWins
    let s := (empty.run [.insertRequest b, .insertRequest c, .insertRequest a]).store
    let s' := (empty.run [.insertRequest a, .insertRequest b, .insertRequest c]).store
    [c, a, b].Nodup ∧ (∀ request, request ∈ [c, a, b] ↔ s.Holds request) ∧
      s.listRequests .everything = [c, a, b] ∧
      (∀ request, s'.Holds request ↔ s.Holds request) ∧
      s'.listRequests .everything = s.listRequests .everything := by
  intro later a b c empty s s'
  have hholds (request : ChangeRequest) : request ∈ [a, b, c] ↔ s.Holds request :=
    @Store.mem_values_iff_holds s request
  have hholds' (request : ChangeRequest) : request ∈ [a, b, c] ↔ s'.Holds request :=
    @Store.mem_values_iff_holds s' request
  have hstored (request : ChangeRequest) : request ∈ [c, a, b] ↔ s.Holds request :=
    (@List.perm_append_comm _ [c] [a, b]).mem_iff.trans (hholds request)
  have hnodup : [c, a, b].Nodup := List.Nodup.of_map ChangeRequest.id (by decide)
  have hsame (request : ChangeRequest) : s'.Holds request ↔ s.Holds request :=
    (hholds' request).symm.trans (hholds request)
  have hsorted : ([c, a, b].filter RequestFilter.everything.accepts).mergeSort Store.listedBefore =
      [c, a, b] :=
    List.mergeSort_of_pairwise (by decide)
  obtain ⟨_, _, _, hrow, hway, _⟩ := Governance.requests_listed_in_order .absent .absent
    .lastWriteWins [.insertRequest b, .insertRequest c, .insertRequest a] .everything
  exact ⟨hnodup, hstored, (hrow _ hnodup hstored).symm.trans hsorted, hsame,
    hway .absent .absent .lastWriteWins
      [.insertRequest a, .insertRequest b, .insertRequest c] hsame⟩

end FlagGovernance
