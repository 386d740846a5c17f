import NotificationLedger.Foundation.Paging
import NotificationLedger.Presentation
import Mathlib.Data.List.Sort
import Mathlib.Data.String.Basic

/-!
# Walking through the list of deliveries

A page of `list_deliveries` is a page in the sense of `Paging`: the ids of the matching deliveries
below the cursor, greatest first. The requests of a walk read the ledgers of their moments, with
other operations in between, so everything a walk guarantees under changes carries over.
-/

namespace NotificationLedger

open Outcome Paging

/-! ## One page

The rows behind the cursor are joined, sorted by id and cut off; each of the three keeps the ids
apart. What is sorted are summaries, and their ids are those of the deliveries. -/

/-- The ids of the deliveries a filter lets through. -/
def Ledger.matching (L : Ledger) (status : Option DeliveryStatus) : Set String :=
  {id | ∃ d ∈ L.deliveries.rows, d.id = id ∧ ∀ s ∈ status, d.status = s}

namespace Repository

variable {L : Ledger} {cursor : Option String} {status : Option DeliveryStatus}

theorem listed_iff {d : Delivery} :
    listed cursor status d = true ↔ (∀ s ∈ status, d.status = s) ∧ Below cursor d.id := by
  rw [listed, Bool.and_eq_true, Option.all_eq_true, Option.all_eq_true]
  simp only [decide_eq_true_eq, Below, String.lt_iff_toList_lt]
  rfl

/-- The rows a list statement sorts, before the limit. -/
def sortedRows (L : Ledger) (cursor : Option String) (status : Option DeliveryStatus) :
    List DeliverySummary :=
  (((L.deliveries.rows.filter (listed cursor status)).filterMap (Runtime.join L)).map
    summaryFromRow).mergeSort listOrder

/-- The ids of the joined rows are those of the deliveries. -/
theorem ids_filterMap_join (hchecked : L.Checked) {ds : List Delivery}
    (hds : ∀ d ∈ ds, d ∈ L.deliveries.rows) :
    ((ds.filterMap (Runtime.join L)).map summaryFromRow).map DeliverySummary.id =
      ds.map Delivery.id := by
  induction ds with
  | nil => rfl
  | cons d ds ih =>
    rw [List.forall_mem_cons] at hds
    obtain ⟨row, hjoin, hrow⟩ := hchecked.exists_join hds.1
    rw [List.filterMap_cons_some hjoin, List.map_cons, List.map_cons, List.map_cons, ih hds.2,
      ← hrow]
    rfl

theorem ids_perm_sortedRows (hchecked : L.Checked) :
    ((sortedRows L cursor status).map DeliverySummary.id).Perm
      ((L.deliveries.rows.filter (listed cursor status)).map Delivery.id) := by
  rw [← ids_filterMap_join hchecked fun d hd ↦ (List.mem_filter.mp hd).1]
  exact (List.mergeSort_perm _ _).map _

theorem mem_ids_sortedRows (hchecked : L.Checked) {id : String} :
    id ∈ (sortedRows L cursor status).map DeliverySummary.id ↔
      id ∈ L.matching status ∧ Below cursor id := by
  rw [(ids_perm_sortedRows hchecked).mem_iff, List.mem_map]
  constructor
  · rintro ⟨d, hd, rfl⟩
    obtain ⟨hmem, hlisted⟩ := List.mem_filter.mp hd
    obtain ⟨hstatus, hbelow⟩ := listed_iff.mp hlisted
    exact ⟨⟨d, hmem, rfl, hstatus⟩, hbelow⟩
  · rintro ⟨⟨d, hmem, rfl, hstatus⟩, hbelow⟩
    exact ⟨d, List.mem_filter.mpr ⟨hmem, listed_iff.mpr ⟨hstatus, hbelow⟩⟩, rfl⟩

theorem sorted_ids_sortedRows (hchecked : L.Checked) :
    ((sortedRows L cursor status).map DeliverySummary.id).Pairwise (· > ·) := by
  have horder : (sortedRows L cursor status).Pairwise fun a b ↦ listOrder a b = true := by
    refine List.pairwise_mergeSort (fun a b c hab hbc ↦ ?_) (fun a b ↦ ?_) _
    · simp only [listOrder, decide_eq_true_eq, not_lt] at hab hbc ⊢
      exact hbc.trans hab
    · simp only [listOrder, Bool.or_eq_true, decide_eq_true_eq, not_lt]
      exact le_total _ _
  have hnodup : ((sortedRows L cursor status).map DeliverySummary.id).Nodup := by
    rw [(ids_perm_sortedRows hchecked).nodup_iff]
    exact L.deliveries.nodup_keys.sublist (List.filter_sublist.map _)
  rw [List.Nodup, List.pairwise_map] at hnodup
  rw [List.pairwise_map]
  refine (horder.and hnodup).imp fun ⟨hle, hne⟩ ↦ ?_
  simp only [listOrder, decide_eq_true_eq, ← String.lt_iff_toList_lt, not_lt] at hle
  exact lt_of_le_of_ne hle hne.symm

/-- The ids of the listed rows, greatest first, are the sorted ones. -/
theorem ids_sortedRows (hchecked : L.Checked) {ids : List String} (hsorted : ids.Pairwise (· > ·))
    (hperm : ids.Perm ((L.deliveries.rows.filter (listed cursor status)).map Delivery.id)) :
    (sortedRows L cursor status).map DeliverySummary.id = ids :=
  ((ids_perm_sortedRows hchecked).trans hperm.symm).eq_of_pairwise'
    (sorted_ids_sortedRows hchecked) hsorted

end Repository

namespace Plugin

variable {S : Setting} {L : Ledger} {caller : Option String} {request : ListDeliveriesRequest}
  {response : ListDeliveriesResponse}

theorem id_of_adminDelivery {value : DeliverySummary} {record : AdminDelivery}
    (h : adminDelivery S value = .ok record) : record.id = value.id := by
  obtain ⟨-, h⟩ := ensure_bind_eq_ok.mp h
  obtain ⟨_, -, h⟩ := bind_eq_ok.mp h
  obtain ⟨_, -, h⟩ := bind_eq_ok.mp h
  obtain ⟨_, -, h⟩ := bind_eq_ok.mp h
  rw [← pure_eq_ok.mp h]

/-- The projected records carry the ids of the rows, each of which a cursor may carry. -/
theorem ids_of_mapM {values : List DeliverySummary} {records : List AdminDelivery}
    (h : values.mapM (adminDelivery S) = .ok records) :
    records.map AdminDelivery.id = values.map DeliverySummary.id ∧
      ∀ record ∈ records, requiredBounded record.id 1 160 = true := by
  have hvalues := forall₂_of_mapM h
  clear h
  induction hvalues with
  | nil => exact ⟨rfl, fun record hmem ↦ absurd hmem List.not_mem_nil⟩
  | @cons value record _ _ hrecord _ ih =>
    have hid := id_of_adminDelivery hrecord
    refine ⟨by rw [List.map_cons, List.map_cons, ih.1, hid], List.forall_mem_cons.mpr ⟨?_, ih.2⟩⟩
    obtain ⟨hvalid, -⟩ := ensure_bind_eq_ok.mp hrecord
    simp only [validSummary, Bool.and_eq_true] at hvalid
    rw [hid]
    exact hvalid.1.1.1.1.1.1.1.1.1.1.1.1

/-- **What a list answers**: as many of the sorted rows as asked for, and the last id if there is
one more. -/
theorem of_listDeliveries (h : listDeliveries S L caller request = .ok response) :
    ∃ n, n = (request.limit.getD 100).toNat ∧ 0 < n ∧
      response.records.map AdminDelivery.id =
        ((Repository.sortedRows L request.cursor request.status).map DeliverySummary.id).take n ∧
      (response.nextCursor =
        if n < ((Repository.sortedRows L request.cursor request.status).map
          DeliverySummary.id).length
        then (((Repository.sortedRows L request.cursor request.status).map
          DeliverySummary.id).take n).getLast?
        else none) ∧
      ∀ record ∈ response.records, requiredBounded record.id 1 160 = true := by
  obtain ⟨_, -, h⟩ := bind_eq_ok.mp h
  obtain ⟨hvalid, h⟩ := ensure_bind_eq_ok.mp h
  obtain ⟨rows, hrows, h⟩ := bind_eq_ok.mp h
  obtain ⟨records, hrecords, h⟩ := bind_eq_ok.mp h
  obtain ⟨-, hrows⟩ := ensure_bind_eq_ok.mp (mapError_eq_ok.mp hrows)
  cases pure_eq_ok.mp hrows
  obtain ⟨hids, hbounded⟩ := ids_of_mapM (mapError_eq_ok.mp hrecords)
  have hpos : 0 < (request.limit.getD 100).toNat := by
    simp only [validListRequest, Bool.and_eq_true, Option.all_eq_true, decide_eq_true_eq] at hvalid
    cases hlimit : request.limit with
    | none => simp
    | some limit =>
      have hrange := hvalid.1 limit hlimit
      rw [Option.getD_some]
      omega
  rw [List.take_take, Nat.min_eq_left (Nat.le_succ _)] at hids
  have hids' : records.map AdminDelivery.id =
      ((Repository.sortedRows L request.cursor request.status).map DeliverySummary.id).take
        (request.limit.getD 100).toNat := hids.trans List.map_take
  -- one row more than asked for is read to tell whether there is another page
  have hmore : decide ((request.limit.getD 100).toNat <
      ((Repository.sortedRows L request.cursor request.status).take
        ((request.limit.getD 100).toNat + 1)).length) = true ↔
      (request.limit.getD 100).toNat <
        (Repository.sortedRows L request.cursor request.status).length := by
    rw [decide_eq_true_eq, List.length_take]
    omega
  rw [← pure_eq_ok.mp h]
  refine ⟨_, rfl, hpos, hids', ?_, hbounded⟩
  rw [← hids', List.getLast?_map, List.length_map]
  exact if_congr hmore rfl rfl

/-- **A list is a page.** -/
theorem isPage_of_listDeliveries (hchecked : L.Checked)
    (h : listDeliveries S L caller request = .ok response) :
    IsPage (L.matching request.status) request.cursor
      (response.records.map AdminDelivery.id) response.nextCursor := by
  obtain ⟨n, -, hpos, hids, hnext, -⟩ := of_listDeliveries h
  rw [hids, hnext]
  exact isPage_take hpos (Repository.sorted_ids_sortedRows hchecked)
    fun k ↦ Repository.mem_ids_sortedRows hchecked

end Plugin

/-! ## Walks

A page is kept beside the state it was read in. The walk of pages is a walk of keys, to which the
rules about changing collections apply. -/

/-- A request of a walk: the state it was answered in, its limit and cursor, and its answer. -/
structure Page where
  state : System
  limit : Option ℤ
  cursor : Option String
  response : Plugin.ListDeliveriesResponse

namespace Page

/-- The ids on a page. -/
def ids (p : Page) : List String := p.response.records.map Plugin.AdminDelivery.id

/-- A page beside the ids it was taken from. -/
def keys (status : Option DeliveryStatus) (p : Page) : Set String × List String :=
  (p.state.ledger.matching status, p.ids)

end Page

/-- Requests made one after the other, the first without a cursor and each following one behind the
cursor of the answer before, with any steps of the system in between. The walk goes on behind
`some cursor` and is over at `none`. -/
inductive PageWalk (S : Setting) (status : Option DeliveryStatus) (s : System) :
    List Page → System → Option (Option String) → Prop
  | start : PageWalk S status s [] s (some none)
  | page {ps : List Page} {t t' : System} {cursor : Option String}
      {ls : List (Command × Reply)} {caller : Option String} {limit : Option ℤ}
      {response : Plugin.ListDeliveriesResponse} (h : PageWalk S status s ps t (some cursor))
      (hrun : (system S).Run t ls t')
      (hread : Plugin.listDeliveries S t'.ledger caller ⟨limit, cursor, status⟩ = .ok response) :
      PageWalk S status s (ps ++ [⟨t', limit, cursor, response⟩]) t'
        (response.nextCursor.map some)

section Walks

variable {S : Setting} {status : Option DeliveryStatus} {s t : System} {ps : List Page}
  {next : Option (Option String)}

theorem PageWalk.reachable (h : PageWalk S status s ps t next) (hreach : (system S).Reachable s) :
    (system S).Reachable t := by
  induction h with
  | start => exact hreach
  | page h hrun hread ih => exact ih.run hrun

/-- The ids of the pages are walked through as keys. -/
theorem PageWalk.walk (h : PageWalk S status s ps t next) (hreach : (system S).Reachable s) :
    Walk (ps.map (Page.keys status)) next := by
  induction h with
  | start => exact .start
  | @page ps t t' cursor ls caller limit response h hrun hread ih =>
    rw [List.map_append, List.map_singleton]
    have hchecked := checked_of_reachable (reachable_ledger ((h.reachable hreach).run hrun))
    exact .page ih (Plugin.isPage_of_listDeliveries hchecked hread)

theorem PageWalk.isPage (h : PageWalk S status s ps t next) (hreach : (system S).Reachable s) :
    ∀ p ∈ ps, IsPage (p.state.ledger.matching status) p.cursor p.ids p.response.nextCursor := by
  induction h with
  | start => exact fun p hp ↦ absurd hp List.not_mem_nil
  | page h hrun hread ih =>
    intro p hp
    rcases List.mem_append.mp hp with hp | hp
    · exact ih p hp
    · cases List.mem_singleton.mp hp
      exact Plugin.isPage_of_listDeliveries
        (checked_of_reachable (reachable_ledger ((h.reachable hreach).run hrun))) hread

/-- A cursor a walk goes on behind is accepted by the next request. -/
theorem PageWalk.cursor (h : PageWalk S status s ps t next) (hreach : (system S).Reachable s)
    {c : String} (hnext : next = some (some c)) :
    requiredBounded c 1 160 = true ∧ storable c = true := by
  cases h with
  | start => cases hnext
  | page h hrun hread =>
    obtain ⟨c', hc', hcursor⟩ := Option.map_eq_some_iff.mp hnext
    cases hcursor
    have hchecked := checked_of_reachable (reachable_ledger ((h.reachable hreach).run hrun))
    have hpage := Plugin.isPage_of_listDeliveries hchecked hread
    have hmem := hpage.mem_of_next hc'
    obtain ⟨record, hrecord, rfl⟩ := List.mem_map.mp hmem
    obtain ⟨⟨d, hd, hid, -⟩, -⟩ := hpage.stored _ hmem
    obtain ⟨-, -, -, -, -, hbounded⟩ := Plugin.of_listDeliveries hread
    refine ⟨hbounded record hrecord, ?_⟩
    rw [← hid]
    exact (hchecked.deliveries d hd).1 d.id List.mem_cons_self

/-! ## The main result -/

/-- What a walk over the pages with this filter guarantees: `next` is the cursor it goes on behind,
or `none` when it is over. -/
structure Paged (S : Setting) (status : Option DeliveryStatus) (ps : List Page) (t : System)
    (next : Option (Option String)) : Prop where
  descending : (ps.flatMap Page.ids).Pairwise (· > ·)
  nodup : (ps.flatMap Page.ids).Nodup
  /-- A delivery that is there at every page is listed once. -/
  complete : next = none → ∀ id, (∀ p ∈ ps, id ∈ p.state.ledger.matching status) →
    (ps.flatMap Page.ids).count id = 1
  /-- The cursor is absent when no match with a smaller id remains. -/
  cursor : ∀ p ∈ ps, p.response.nextCursor = none ↔
    ¬∃ id ∈ p.state.ledger.matching status, Below p.cursor id ∧ ∀ seen ∈ p.ids, id < seen
  /-- The number of pages is bounded by the number of deliveries there are. -/
  ends : ∀ F : Finset String, (∀ p ∈ ps, ∀ d ∈ p.state.ledger.deliveries.rows, d.id ∈ F) →
    ps.length ≤ F.card + 1
  /-- Until the walk is over its next request is answered, if every row projects. -/
  continues : ∀ cursor, next = some cursor → ∀ ls t' caller limit, (system S).Run t ls t' →
    (authorizedCaller caller S.config.adminCallers).isSome →
    (∀ l ∈ limit, 1 ≤ l ∧ l ≤ (200 : ℤ)) →
    (∀ d ∈ t'.ledger.deliveries.rows, ∀ row ∈ Runtime.join t'.ledger d,
      ∃ record, Plugin.adminDelivery S (Repository.summaryFromRow row) = .ok record) →
    ∃ response, Plugin.listDeliveries S t'.ledger caller ⟨limit, cursor, status⟩ = .ok response

/-- **Paging neither loses nor repeats deliveries.** -/
theorem paged_of_pageWalk (hreach : (system S).Reachable s)
    (h : PageWalk S status s ps t next) : Paged S status ps t next := by
  have hwalk := h.walk hreach
  have hkeys : keysOf (ps.map (Page.keys status)) = ps.flatMap Page.ids := by
    rw [keysOf, List.flatMap_map]
    rfl
  refine ⟨hkeys ▸ hwalk.sorted, hkeys ▸ hwalk.nodup, ?_, fun p hp ↦ ?_, fun F hF ↦ ?_, ?_⟩
  · rintro rfl id hid
    refine List.count_eq_one_of_mem (hkeys ▸ hwalk.nodup) ?_
    rcases hwalk.covers (k := id) (List.forall_mem_map.mpr hid) with hseen | ⟨_, hnone, -⟩
    · exact hkeys ▸ hseen
    · cases hnone
  · exact (h.isPage hreach p hp).next_eq_none_iff
  · -- the ids shown are distinct, and all of them lie in the finite set
    have hstored : ∀ id ∈ keysOf (ps.map (Page.keys status)), id ∈ F := by
      rw [hkeys]
      intro id hid
      obtain ⟨p, hp, hid⟩ := List.mem_flatMap.mp hid
      obtain ⟨⟨d, hd, rfl, -⟩, -⟩ := (h.isPage hreach p hp).stored id hid
      exact hF p hp d hd
    have hlength := hwalk.length_le_card hstored
    rwa [List.length_map] at hlength
  · rintro cursor rfl ls t' caller limit hrun hcaller hlimit hrows
    refine Plugin.exists_listDeliveries hcaller ?_ ?_ hrows
    · rw [Plugin.validListRequest, Bool.and_eq_true, Option.all_eq_true, Option.all_eq_true]
      refine ⟨fun l hl ↦ decide_eq_true (hlimit l hl), fun c hc ↦ ?_⟩
      cases hc
      exact (h.cursor hreach rfl).1
    · intro c hc
      cases Option.mem_toList.mp hc
      exact (h.cursor hreach rfl).2

end Walks

namespace Deployment

/-- The delivery of the other module, greater than that of the organization. -/
def teamDeliveryId : String := "ntf_dlv_9d949798ced1575cdd72b0d21662dc45"

/-- Every row projects, and these ids are listed behind the cursor. -/
def lists (s : System) (cursor : Option String) (ids : List String) : Bool :=
  (s.ledger.deliveries.rows.all fun d ↦ (Runtime.join s.ledger d).all fun row ↦
    (Plugin.adminDelivery setting (Repository.summaryFromRow row)).isOk) &&
  decide ((s.ledger.deliveries.rows.filter (Repository.listed cursor none)).map Delivery.id = ids)

/-- One of the two deliveries is behind the other also after a revocation. -/
def twoPages (s : System) : Bool :=
  lists s none [delivery.id, teamDeliveryId] &&
    (s.exec setting (observeRevoked "o1")).any fun q : System × Reply ↦
      decide (q.1.ledger.deliveries ≠ s.ledger.deliveries) &&
        lists q.1 (some teamDeliveryId) [delivery.id]

theorem exists_twoPages : ∃ s, (system setting).Reachable s ∧ twoPages s = true :=
  exists_of_execAll (createByTeam 1) twoPages reachable_queued (by decide +kernel)

/-- A page of one record shows the greatest id, and goes on if there are more. -/
theorem exists_page {s : System} {cursor : Option String} {ids : List String} {id : String}
    {rest : List String} (hreach : (system setting).Reachable s)
    (hlists : lists s cursor ids = true) (hperm : (id :: rest).Perm ids)
    (hsorted : (id :: rest).Pairwise (· > ·))
    (hcursor : ∀ c ∈ cursor, requiredBounded c 1 160 = true ∧ storable c = true) :
    ∃ response, Plugin.listDeliveries setting s.ledger (some "admin") ⟨some 1, cursor, none⟩ =
        .ok response ∧ response.records.map Plugin.AdminDelivery.id = [id] ∧
      response.nextCursor = if rest = [] then none else some id := by
  rw [lists, Bool.and_eq_true, decide_eq_true_eq] at hlists
  obtain ⟨hrows, hids⟩ := hlists
  obtain ⟨response, hread⟩ : ∃ response, Plugin.listDeliveries setting s.ledger (some "admin")
      ⟨some 1, cursor, none⟩ = .ok response := by
    refine Plugin.exists_listDeliveries (by decide) ?_ ?_ fun d hd row hrow ↦ ?_
    · rw [Plugin.validListRequest, Bool.and_eq_true, Option.all_eq_true, Option.all_eq_true]
      refine ⟨fun limit hlimit ↦ ?_, fun c hc ↦ (hcursor c hc).1⟩
      cases hlimit
      decide
    · exact fun c hc ↦ (hcursor c (Option.mem_toList.mp hc)).2
    · exact exists_of_isOk ((Option.all_eq_true _ _).mp (List.all_eq_true.mp hrows d hd) row hrow)
  obtain ⟨n, hn, -, hshown, hnext, -⟩ := Plugin.of_listDeliveries hread
  have hone : n = 1 := hn
  rw [Repository.ids_sortedRows (checked_of_reachable (reachable_ledger hreach)) hsorted
    (hids.symm ▸ hperm)] at hshown hnext
  subst hone
  refine ⟨response, hread, hshown, hnext.trans ?_⟩
  cases rest <;> simp

end Deployment

/-- The two deliveries of two modules, on two pages with a revocation in between. -/
theorem paged_of_pageWalk_revoked :
    ∃ s first second t, PageWalk Deployment.setting none s [first, second] t none ∧
      first.ids = [Deployment.teamDeliveryId] ∧ second.ids = [Deployment.delivery.id] ∧
      first.state.ledger.deliveries ≠ second.state.ledger.deliveries ∧
      Paged Deployment.setting none [first, second] t none := by
  obtain ⟨s, hreach, h⟩ := Deployment.exists_twoPages
  rw [Deployment.twoPages, Bool.and_eq_true] at h
  obtain ⟨hall, h⟩ := h
  obtain ⟨⟨t, reply⟩, hstep, h⟩ := (Option.any_eq_true _ _).mp h
  rw [Bool.and_eq_true, decide_eq_true_eq] at h
  obtain ⟨hchanged, hrest⟩ := h
  have hrun : (system Deployment.setting).Run s [(Deployment.observeRevoked "o1", reply)] t :=
    .single (show (system Deployment.setting).Step s _ t from hstep)
  obtain ⟨first, hfirst, hfirstIds, hmore⟩ :=
    Deployment.exists_page hreach hall (List.Perm.swap _ _ []) (by decide) nofun
  obtain ⟨second, hsecond, hsecondIds, hover⟩ :=
    Deployment.exists_page (hreach.run hrun) hrest (.refl _) (by decide) (by
      intro c hc
      cases hc
      decide)
  have hwalk₁ : PageWalk Deployment.setting none s _ s _ := .page .start .nil hfirst
  rw [hmore] at hwalk₁
  have hwalk₂ := PageWalk.page hwalk₁ hrun hsecond
  rw [hover] at hwalk₂
  exact ⟨s, _, _, t, hwalk₂, hfirstIds, hsecondIds, hchanged.symm, paged_of_pageWalk hreach hwalk₂⟩

end NotificationLedger
