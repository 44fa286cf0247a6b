/-
The end of a session, exactly: what goes, what becomes free, and that
nobody else notices more than that.

# The cascade

A session that ends is struck off, its resources go, its places are given
back one by one, its reservations go, and the queue is looked through
after each of these steps. The rescans in between run while part of the
session's belongings is still there, so what they serve may differ from
what one rescan at the end would serve; but all that a rescan does is to
serve who waits (`Queue.Advances`), and this is closed under composition.

# Two kinds of sessions

An exporter holds no places and owns no reservations, and a client
publishes nothing, since everything has an owner of the right role. So
half of the cascade is idle in either case, and the net effect is one of
`ExporterGone` and `ClientGone`.

# When sessions end

`Ending` lists the occasions. In a sweep several sessions may end in a
row, so the states before and after the end of one of them are not those
before and after the sweep.
-/
import LabLease.Proofs.Coordinator.Leasing
import LabLease.Proofs.Coordinator.Presence
import LabLease.Proofs.Registry.Belongings

namespace LabLease

/-- A place that has been given back at some date. -/
def Place.freed (p : Place) (date : Timestamp) : Place :=
  { p with holder := none, bound := [] }.touched date

/-- What the places of a session have bound. -/
def Places.boundBy (ps : Places) (session : SessionId) :
    List ResourceId :=
  (ps.all.filter (·.isHeldBy session)).flatMap (·.bound)

theorem Places.mem_boundBy {ps : Places} {session : SessionId}
    {id : ResourceId} : id ∈ ps.boundBy session ↔
      ∃ n p, ps.entries.get? n = some p ∧ p.isHeldBy session = true
        ∧ id ∈ p.bound := by
  unfold boundBy
  rw [List.mem_flatMap]
  constructor
  · rintro ⟨p, hp, hid⟩
    obtain ⟨hall, hheld⟩ := List.mem_filter.1 hp
    obtain ⟨n, hn⟩ := Places.mem_all.1 hall
    exact ⟨n, p, hn, hheld, hid⟩
  · rintro ⟨n, p, hn, hheld, hid⟩
    exact ⟨p, List.mem_filter.2 ⟨Places.mem_all.2 ⟨n, hn⟩, hheld⟩, hid⟩

/-- What a session holds or has reserved it has as a client. -/
theorem Tenant.client {r : Roster} {held : Holder}
    (ht : Tenant none r held) {o : Session}
    (ho : r.sessions.get? held.session = some o) : o.role = .client := by
  obtain ⟨o', ho', -, hrole⟩ := ht.resolve_left nofun
  rw [ho] at ho'
  cases ho'
  exact hrole

namespace Coordinator

variable {s t u : State} {x : SessionId} {now : Moment}

-- ======================================================= the net effects

/-- An exporter is gone: its resources are, and reservations that lost
one of them or that waited may have changed. -/
structure ExporterGone (x : SessionId) (s t : State) : Prop where
  resources : ∀ id, t.inventory.entries.get? id
    = (s.inventory.entries.get? id).filter (·.owner ≠ x)
  places : t.places = s.places
  /-- Who lost a resource waits again, or has been served since. -/
  reservations : ∀ i, Option.Rel (fun e' e => e'.Advances e
      ∨ (e.reservation.state = .allocated
        ∧ (∃ id ∈ e.reservation.allocations,
            s.inventory.ownerOf? id = some x)
        ∧ e'.Advances (e.moved .waiting)))
    (t.queue.entries.get? i) (s.queue.entries.get? i)

/-- A client is gone: its places and what they had bound are free, its
reservations are gone, and others that waited may have been served. -/
structure ClientGone (x : SessionId) (now : Moment) (s t : State) :
    Prop where
  resources : ∀ id, t.inventory.entries.get? id
    = (s.inventory.entries.get? id).map fun e =>
        if id ∈ s.places.boundBy x then
          { e with resource := { e.resource with
            acquired := false, version := e.resource.version + 1 } }
        else e
  acquired : ∀ id ∈ s.places.boundBy x, ∀ r,
    s.inventory.get? id = some r → r.acquired = true
  places : ∀ n, t.places.entries.get? n
    = (s.places.entries.get? n).map fun p =>
        if p.isHeldBy x then p.freed now.date else p
  reservations : ∀ i, Option.Rel QueueEntry.Advances
    (t.queue.entries.get? i)
    ((s.queue.entries.get? i).filter (·.reservation.owner.session ≠ x))

/-- A session is gone: it has no record any more, everybody else has the
same one, and what it had is gone or free. -/
structure Departed (x : SessionId) (role : Role) (now : Moment)
    (s t : State) : Prop where
  gone : t.roster.sessions.get? x = none
  others : ∀ i o, i ≠ x → s.roster.sessions.get? i = some o →
    t.roster.sessions.get? i = some o
  exporter : role = .exporter → ExporterGone x s t
  client : role = .client → ClientGone x now s t

-- ========================================================== the own part

namespace Sound

/-- What a session publishes it publishes as an exporter. -/
theorem exporter_of_owner (h : Sound none s) {id : ResourceId}
    {e : Published} (he : s.inventory.entries.get? id = some e)
    {o : Session} (ho : s.roster.sessions.get? e.owner = some o) :
    o.role = .exporter := by
  obtain ⟨o', ho', -, hrole⟩ := h.attended.owned id e he
  rw [ho] at ho'
  cases ho'
  exact hrole

/-- An exporter holds nothing. -/
theorem heldBy_exporter (h : Sound none s) {o : Session}
    (ho : s.roster.sessions.get? x = some o) (hrole : o.role = .exporter) :
    s.places.heldBy x = [] := by
  refine List.eq_nil_iff_forall_not_mem.2 fun name hname => ?_
  obtain ⟨n, p, hp, hheld, -⟩ := Places.mem_heldBy.1 hname
  obtain ⟨held, hh, hx⟩ := (Option.any_eq_true _ _).1 hheld
  have hsession := of_decide_eq_true hx
  subst hsession
  have hclient := (h.attended.holders n p held hp hh).client ho
  rw [hrole] at hclient
  cases hclient

/-- An exporter has reserved nothing. -/
theorem isOwnedBy_exporter (h : Sound none s) {o : Session}
    (ho : s.roster.sessions.get? x = some o) (hrole : o.role = .exporter)
    {i : String} {e : QueueEntry}
    (he : s.queue.entries.get? i = some e) : e.isOwnedBy x = false := by
  rw [Bool.eq_false_iff]
  intro hown
  have hsession := QueueEntry.isOwnedBy_iff.1 hown
  subst hsession
  have hclient := (h.attended.tenants i e he).client ho
  rw [hrole] at hclient
  cases hclient

/-- A client publishes nothing. -/
theorem removeOwner_client (h : Sound none s) {o : Session}
    (ho : s.roster.sessions.get? x = some o) (hrole : o.role = .client) :
    s.inventory.removeOwner x = (s.inventory, []) := by
  have hnone : (s.inventory.entries.filter fun _ e => e.owner = x).keys
      = [] := by
    refine List.eq_nil_iff_forall_not_mem.2 fun id hid => ?_
    obtain ⟨e, he, hown⟩ := Table.mem_keys_filter.1 hid
    have howner := of_decide_eq_true hown
    subst howner
    have hexporter := h.exporter_of_owner he ho
    rw [hrole] at hexporter
    cases hexporter
  unfold Inventory.removeOwner
  rw [hnone]
  rfl

end Sound

-- ===================================================== the cascade's parts

namespace State

theorem applyChanges_places (owner : SessionId)
    {changes : List ResourceChange} (now : Moment)
    (h : ∀ c ∈ changes, c.Current s.inventory)
    (hnd : (changes.map (·.id)).Nodup) :
    (s.applyChanges owner changes now).places = s.places := by
  rw [applyChanges_eq s owner now h hnd]
  unfold restocked
  split
  · rw [emitAll_places]
  · rw [rescan_places, emitAll_places]

theorem applyChanges_inventory (owner : SessionId)
    {changes : List ResourceChange} (now : Moment)
    (h : ∀ c ∈ changes, c.Current s.inventory)
    (hnd : (changes.map (·.id)).Nodup) :
    (s.applyChanges owner changes now).inventory = s.inventory.flag
      ((changes.map ResourceChange.id).filter s.places.isBound) true := by
  rw [applyChanges_eq s owner now h hnd]
  unfold restocked
  split
  · rw [emitAll_inventory]
  · rw [rescan_inventory, emitAll_inventory]

/-- What was lost is lost first, and only then anybody is served. -/
theorem applyChanges_advances (owner : SessionId)
    {changes : List ResourceChange} (now : Moment)
    (h : ∀ c ∈ changes, c.Current s.inventory)
    (hnd : (changes.map (·.id)).Nodup)
    (hf : s.inventory.Filed) (hq : s.queue.Filed) :
    (s.applyChanges owner changes now).queue.Advances
      (s.queue.invalidate (lost changes)).2 := by
  have hkept : (s.restocked owner changes).queue
      = (s.queue.invalidate (lost changes)).2 := emitAll_queue _ _
  rw [applyChanges_eq s owner now h hnd]
  split
  · rw [hkept]
    exact .refl _
  · rw [rescan_queue, hkept]
    refine .rescan (hq.descends (s.queue.invalidate_descends _)) ?_ _ _ _
    unfold restocked
    rw [emitAll_inventory]
    exact hf.flag _ true

/-- The release of a held place on behalf of nobody. -/
theorem releaseFrom_held_eq {place : String} {p : Place} {held : Holder}
    (session : SessionId) (now : Moment)
    (hp : s.places.entries.get? place = some p)
    (hh : p.holder = some held) :
    s.releaseFrom place session none now
      = (State.vacated { s with
          places := ⟨s.places.entries.insert place (p.freed now.date)⟩ }
          place none p.bound).rescan now [] := by
  unfold releaseFrom
  rw [Places.release_of_held session now.date hp hh]
  exact finishRelease_eq _ place none p.bound now

/-- The loop over the places of a session: they become free and so does
what they have bound, and meanwhile who waits may be served. -/
theorem foldl_releaseFrom (session : SessionId) (now : Moment)
    (ps : List Place) (hnd : (ps.map (·.name)).Nodup)
    (hps : ∀ p ∈ ps, s.places.entries.get? p.name = some p
      ∧ p.holder ≠ none)
    (hf : s.inventory.Filed) (hq : s.queue.Filed) :
    let t := (ps.map (·.name)).foldl (fun s place =>
      s.releaseFrom place session none now) s
    t.inventory = s.inventory.flag (ps.flatMap (·.bound)) false
      ∧ (∀ n, t.places.entries.get? n
        = (s.places.entries.get? n).map fun p =>
            if n ∈ ps.map (·.name) then p.freed now.date else p)
      ∧ t.roster = s.roster
      ∧ t.queue.Advances s.queue := by
  induction ps generalizing s with
  | nil =>
    refine ⟨(Inventory.flag_nil _ _).symm, fun n => ?_, rfl, .refl _⟩
    simp
  | cons p ps ih =>
    obtain ⟨hnot, hrest⟩ := List.nodup_cons.1 hnd
    obtain ⟨hp, hheld⟩ := hps p List.mem_cons_self
    obtain ⟨held, hh⟩ := Option.ne_none_iff_exists'.1 hheld
    have hone := releaseFrom_held_eq session now hp hh
    have hinv : (s.releaseFrom p.name session none now).inventory
        = s.inventory.flag p.bound false := by
      rw [hone, rescan_inventory]
      exact emitAll_inventory _ _
    have hplaces : (s.releaseFrom p.name session none now).places
        = ⟨s.places.entries.insert p.name (p.freed now.date)⟩ := by
      rw [hone, rescan_places]
      exact emitAll_places _ _
    have hroster := s.releaseFrom_roster p.name session now
    have hqueue : (s.releaseFrom p.name session none now).queue.Advances
        s.queue := by
      rw [hone, rescan_queue]
      unfold vacated
      rw [emitAll_queue, emitAll_inventory]
      exact .rescan hq (hf.flag _ false) _ _ _
    have hq' : (s.releaseFrom p.name session none now).queue.Filed := by
      rw [hone, rescan_queue]
      unfold vacated
      rw [emitAll_queue]
      exact hq.rescan _ _ _ _
    -- the places further down the list are still held
    have hps' : ∀ q ∈ ps, (s.releaseFrom p.name session none
        now).places.entries.get? q.name = some q ∧ q.holder ≠ none := by
      intro q hmem
      have hne : p.name ≠ q.name :=
        fun heq => hnot (List.mem_map.2 ⟨q, hmem, heq.symm⟩)
      rw [hplaces, Table.get?_insert, if_neg hne]
      exact hps q (List.mem_cons_of_mem p hmem)
    obtain ⟨ihinv, ihplaces, ihroster, ihqueue⟩ :=
      ih hrest hps' (by rw [hinv]; exact hf.flag _ false) hq'
    rw [List.map_cons, List.foldl_cons]
    refine ⟨?_, fun n => ?_, ihroster.trans hroster,
      ihqueue.trans hqueue⟩
    · rw [ihinv, hinv, List.flatMap_cons, Inventory.flag_append]
    · rw [ihplaces n, hplaces, Table.get?_insert]
      by_cases hn : p.name = n
      · subst hn
        rw [if_pos rfl, hp]
        simp [hnot]
      · simp [hn, Ne.symm hn]

end State

-- ==================================================== the cascade at once

namespace State

/-- A session that ends, when only its reservations are left of it. -/
def stripped (s : State) (session : SessionId) (now : Moment) : State :=
  let t := State.applyChanges { s with
    roster := s.roster.remove session
    inventory := (s.inventory.removeOwner session).1 } session
      (s.inventory.removeOwner session).2 now
  (t.places.heldBy session).foldl
    (fun s place => s.releaseFrom place session none now) t

theorem endSession_eq (s : State) (session : SessionId) (now : Moment) :
    s.endSession session now
      = ({ s.stripped session now with
          queue := ((s.stripped session now).queue.removeSession
            session).2 }.emitReservations
          ((s.stripped session now).queue.removeSession
            session).1).rescan now [] := rfl

theorem endSession_inventory (session : SessionId) (now : Moment) :
    (s.endSession session now).inventory
      = (s.stripped session now).inventory := by
  rw [endSession_eq, rescan_inventory]
  exact emitAll_inventory _ _

theorem endSession_places (session : SessionId) (now : Moment) :
    (s.endSession session now).places
      = (s.stripped session now).places := by
  rw [endSession_eq, rescan_places]
  exact emitAll_places _ _

theorem endSession_advances (session : SessionId) (now : Moment)
    (hf : (s.stripped session now).inventory.Filed)
    (hq : (s.stripped session now).queue.Filed) :
    (s.endSession session now).queue.Advances
      ((s.stripped session now).queue.removeSession session).2 := by
  rw [endSession_eq, rescan_queue]
  unfold emitReservations
  rw [emitAll_queue, emitAll_inventory]
  exact .rescan (hq.descends (Queue.removeSession_descends _ _)) hf _ _ _

end State

namespace Sound

/-- The end of an exporter's session: there are no places to give back,
and no reservations. -/
theorem endSession_exporter (h : Sound none s) {o : Session}
    (ho : s.roster.sessions.get? x = some o) (hrole : o.role = .exporter)
    (now : Moment) : ExporterGone x s (s.endSession x now) := by
  have hr := s.inventory.removeOwner_restock "" x
  have hf := hr.filed h.inventory
  let t : State := { s with
    roster := s.roster.remove x
    inventory := (s.inventory.removeOwner x).1 }
  let u := t.applyChanges x (s.inventory.removeOwner x).2 now
  have hplaces : u.places = s.places :=
    t.applyChanges_places x now hr.current hr.nodup
  have hinv : u.inventory = (s.inventory.removeOwner x).1 := by
    refine (t.applyChanges_inventory x now hr.current hr.nodup).trans
      (Inventory.flag_of_forall fun id hid r hget => ?_)
    -- nothing that was reported is there any more
    obtain ⟨c, hc, rfl⟩ := List.mem_map.1 (List.mem_filter.1 hid).1
    obtain ⟨k, -, rfl⟩ := List.mem_map.1 hc
    obtain ⟨e, he, -⟩ := Inventory.get?_eq_some.1 hget
    have hgone : t.inventory.entries.get? k = none := (hr.removed k hc).1
    rw [show (ResourceChange.removed k).id = k from rfl, hgone] at he
    cases he
  have hlost := s.queue.invalidate_descends
    (State.lost (s.inventory.removeOwner x).2)
  have hqueue : u.queue.Advances (s.queue.invalidate
      (State.lost (s.inventory.removeOwner x).2)).2 :=
    t.applyChanges_advances x now hr.current hr.nodup hf h.queue
  have hstripped : s.stripped x now = u := by
    have hnone : u.places.heldBy x = [] := by
      rw [hplaces, h.heldBy_exporter ho hrole]
    show (u.places.heldBy x).foldl _ u = u
    rw [hnone]
    rfl
  have hend := s.endSession_advances x now
    (by rw [hstripped, hinv]; exact hf)
    (by rw [hstripped]
        exact (h.queue.descends hlost).descends hqueue.descends)
  rw [hstripped] at hend
  refine ⟨fun id => ?_, ?_, fun i => ?_⟩
  · rw [State.endSession_inventory, hstripped, hinv]
    exact s.inventory.get?_removeOwner x id
  · rw [State.endSession_places, hstripped, hplaces]
  · have hrel := (hend.trans (hqueue.removeSession x)).of_lost
      (fun i e he => h.isOwnedBy_exporter ho hrole he) i
    generalize (s.endSession x now).queue.entries.get? i = y at hrel ⊢
    generalize s.queue.entries.get? i = z at hrel ⊢
    cases hrel with
    | none => exact .none
    | some hchange =>
      refine .some (hchange.imp_right ?_)
      rintro ⟨hholds, hadv⟩
      obtain ⟨ha, id, hid, hin⟩ := QueueEntry.holdsAny_iff.1 hholds
      exact ⟨ha, ⟨id, hid, Inventory.ownerOf?_eq_some.2
        (hr.removed id (State.mem_lost.1 hin)).2⟩, hadv⟩

/-- The end of a client's session: there are no resources to remove. -/
theorem endSession_client (h : Sound none s) {o : Session}
    (ho : s.roster.sessions.get? x = some o) (hrole : o.role = .client)
    (now : Moment) : ClientGone x now s (s.endSession x now) := by
  let ps := s.places.all.filter (·.isHeldBy x)
  have hstored : ∀ p ∈ ps, s.places.entries.get? p.name = some p
      ∧ p.holder ≠ none := by
    intro p hp
    obtain ⟨hall, hheld⟩ := List.mem_filter.1 hp
    obtain ⟨n, hn⟩ := Places.mem_all.1 hall
    rw [h.places n p hn]
    refine ⟨hn, fun hfree => ?_⟩
    simp [Place.isHeldBy, hfree] at hheld
  have hstripped : s.stripped x now
      = (ps.map (·.name)).foldl (fun s place =>
          s.releaseFrom place x none now)
        { s with roster := s.roster.remove x } := by
    unfold State.stripped
    rw [h.removeOwner_client ho hrole]
    rfl
  obtain ⟨hinv, hplaces, -, hqueue⟩ := State.foldl_releaseFrom
    (s := { s with roster := s.roster.remove x }) x now ps
    (h.places.nodup_names.sublist (List.filter_sublist.map _)) hstored
    h.inventory h.queue
  rw [← hstripped] at hinv hplaces hqueue
  have hend := s.endSession_advances x now
    (by rw [hinv]; exact h.inventory.flag _ false)
    (h.queue.descends hqueue.descends)
  have hraised : ∀ id ∈ s.places.boundBy x, ∀ r,
      s.inventory.get? id = some r → r.acquired = true := by
    intro id hid r hr
    obtain ⟨n, p, hp, hheld, hin⟩ := Places.mem_boundBy.1 hid
    refine (h.leased.flagged id r hr).2 (Places.isBound_iff.2
      ⟨n, p, hp, ?_, hin⟩)
    obtain ⟨held, hh, -⟩ := (Option.any_eq_true _ _).1 hheld
    exact Option.isSome_iff_exists.2 ⟨held, hh⟩
  refine ⟨fun id => ?_, hraised, fun n => ?_, fun i => ?_⟩
  · rw [State.endSession_inventory, hinv, Inventory.get?_entries_flag]
    cases he : s.inventory.entries.get? id with
    | none => rfl
    | some e =>
      by_cases hid : id ∈ s.places.boundBy x
      · have hup := hraised id hid e.resource
          (Inventory.get?_eq_some.2 ⟨e, he, rfl⟩)
        have hmem : id ∈ ps.flatMap (·.bound) := hid
        simp [hid, hmem, Resource.flagged, hup]
      · have hmem : id ∉ ps.flatMap (·.bound) := hid
        simp [hid, hmem]
  · rw [State.endSession_places, hplaces n]
    cases hp : s.places.entries.get? n with
    | none => rfl
    | some p =>
      have hname := h.places n p hp
      have hmem : n ∈ ps.map (·.name) ↔ p.isHeldBy x = true := by
        rw [List.mem_map]
        constructor
        · rintro ⟨q, hq, hqn⟩
          have hget := (hstored q hq).1
          rw [hqn, hp] at hget
          cases hget
          exact (List.mem_filter.1 hq).2
        · intro hheld
          exact ⟨p, List.mem_filter.2
            ⟨Places.mem_all.2 ⟨n, hp⟩, hheld⟩, hname⟩
      simp [hmem]
  · have hrel := (hend.trans (hqueue.removeSession x)) i
    have hkept : (s.queue.removeSession x).2.entries.get? i
        = (s.queue.entries.get? i).filter
          (·.reservation.owner.session ≠ x) := by
      unfold Queue.removeSession QueueEntry.isOwnedBy
      dsimp only
      rw [Table.get?_filter]
      simp
    rw [← hkept]
    exact hrel

end Sound

-- ================================================= the occasions to end

/-- What a state holds besides the roster and the events. -/
def State.registries (s : State) : Inventory × Places × Queue :=
  (s.inventory, s.places, s.queue)

/-- The occasions on which a session ends, with the states right before
and right after its end. -/
inductive Ending (s : State) (x : SessionId) (now : Moment) :
    State → State → Prop
  /-- Its connection is lost. -/
  | disconnected (hlive : s.isLive x = true) :
    Ending s x now s (s.step (.disconnect x now))
  /-- It says good-bye. -/
  | asked (hlive : s.isLive x = true) :
    Ending s x now s (s.step (.execute x .disconnect now))
  /-- Somebody registers under its name. -/
  | replaced {old : Session} (name : String) (role : Role)
      (hn : s.roster.named? name = some old) (hx : old.id = x) :
    Ending s x now s (s.step (.register name role now))
  /-- It was silent for too long. A sweep ends one such session after
  the other. -/
  | evicted {before after : List SessionId}
      (h : s.roster.expired now = before ++ x :: after) :
    Ending s x now (before.foldl (fun s id => s.evict id now) s)
      ((before.foldl (fun s id => s.evict id now) s).evict x now)

/-- A good-bye is a sign of life and the end of the session. -/
theorem State.step_asked {roster : Roster}
    (hr : s.roster.heartbeat x now = .ok roster) :
    s.step (.execute x .disconnect now)
      = { s with roster }.endSession x now := by
  obtain ⟨o, ho⟩ := Roster.get?_of_heartbeat hr
  have hbeat := Action.heartbeat_apply s x now
  have hend := Action.disconnect_apply { s with roster } x now
  rw [hr] at hbeat
  rw [show ({ s with roster } : State).roster.get x = .ok _ from
    Roster.get_eq_ok.2 ho] at hend
  show ((Action.execute x .disconnect now).apply s).2 = _
  unfold Action.execute
  rw [Action.apply_bind_ok hbeat, Action.apply_bind_ok hend]
  rfl

namespace Sound

/-- The end of a session, whatever else it is called for. -/
theorem departed (h : Sound none s) {o : Session}
    (ho : s.roster.sessions.get? x = some o) (now : Moment)
    {before after : State} (hbefore : before.registries = s.registries)
    (hafter : after.registries = (s.endSession x now).registries)
    (hgone : after.roster.sessions.get? x = none)
    (hothers : ∀ i o, i ≠ x → before.roster.sessions.get? i = some o →
      after.roster.sessions.get? i = some o) :
    Departed x o.role now before after := by
  simp only [State.registries, Prod.mk.injEq] at hbefore hafter
  obtain ⟨hinv, hplaces, hqueue⟩ := hbefore
  obtain ⟨hinv', hplaces', hqueue'⟩ := hafter
  refine ⟨hgone, hothers, fun hrole => ?_, fun hrole => ?_⟩
  · obtain ⟨hr, hp, hq⟩ := h.endSession_exporter ho hrole now
    refine ⟨?_, ?_, ?_⟩
    · rw [hinv, hinv']
      exact hr
    · rw [hplaces, hplaces', hp]
    · rw [hinv, hqueue, hqueue']
      exact hq
  · obtain ⟨hr, ha, hp, hq⟩ := h.endSession_client ho hrole now
    refine ⟨?_, ?_, ?_, ?_⟩
    · rw [hinv, hplaces, hinv']
      exact hr
    · rw [hinv, hplaces]
      exact ha
    · rw [hplaces, hplaces']
      exact hp
    · rw [hqueue, hqueue']
      exact hq

/-- Nobody but the session itself is struck off. -/
theorem endSession_others (s : State) (now : Moment) {i : SessionId}
    {o : Session} (hne : i ≠ x)
    (ho : s.roster.sessions.get? i = some o) :
    (s.endSession x now).roster.sessions.get? i = some o := by
  rw [State.endSession_roster, Roster.get?_remove, if_neg (Ne.symm hne)]
  exact ho

theorem departed_asked (h : Sound none s) {o : Session}
    (ho : s.roster.sessions.get? x = some o) (now : Moment) :
    Departed x o.role now s (s.step (.execute x .disconnect now)) := by
  obtain ⟨roster, hr⟩ := Roster.heartbeat_of_live ho now
  rw [State.step_asked hr]
  have hheard : Sound none { s with roster } := h.heard hr
  obtain ⟨o', ho', hroster⟩ := Roster.heartbeat_ok hr
  rw [ho] at ho'
  cases ho'
  have hget : roster.sessions.get? x
      = some { o with lastSeen := now.ticks } := by
    rw [hroster, Table.get?_insert, if_pos rfl]
  refine hheard.departed (o := { o with lastSeen := now.ticks }) hget now
    rfl rfl (State.endSession_gone _ _ _) fun i o' hne ho' => ?_
  refine endSession_others _ now hne ?_
  show roster.sessions.get? i = some o'
  rw [hroster, Table.get?_insert, if_neg (Ne.symm hne)]
  exact ho'

theorem departed_replaced (h : Sound none s) {old : Session}
    {name : String} (role : Role)
    (hn : s.roster.named? name = some old) (now : Moment) :
    s.roster.sessions.get? old.id = some old
      ∧ Departed old.id old.role now s
          (s.step (.register name role now)) := by
  obtain ⟨hold, hname⟩ := h.attended.roster.named?_eq_some.1 hn
  refine ⟨hold, ?_⟩
  have hnote : Sound none
      (s.notify old.id "replaced by a new session") :=
    h.move (.aside _ s.incompleteSince s.evictions)
  have hcleared : s.cleared name now
      = (s.notify old.id "replaced by a new session").endSession old.id
          now := by
    unfold State.cleared
    rw [hn]
  have hgone : (s.cleared name now).roster.sessions.get? old.id = none := by
    rw [hcleared]
    exact State.endSession_gone _ _ _
  have hothers : ∀ i o, i ≠ old.id →
      s.roster.sessions.get? i = some o →
      (s.cleared name now).roster.sessions.get? i = some o := by
    intro i o hne ho
    rw [hcleared]
    exact endSession_others _ now hne ho
  unfold State.step
  dsimp only
  rw [Action.register_apply]
  cases hr : (s.cleared name now).roster.register name role now with
  | error e =>
    exact hnote.departed hold now rfl (by rw [← hcleared]) hgone hothers
  | ok out =>
    obtain ⟨-, -, hid, hroster⟩ := Roster.register_ok hr
    have hlast : (s.cleared name now).roster.lastId
        = s.roster.lastId := by
      rw [hcleared, State.endSession_roster]
      exact Roster.remove_lastId _ _
    -- whoever was live has a smaller number than the newcomer
    have hkept : ∀ i o, s.roster.sessions.get? i = some o →
        out.2.sessions.get? i
          = (s.cleared name now).roster.sessions.get? i := by
      intro i o ho
      have hle := h.attended.roster.given i o ho
      have hne : out.1 ≠ i := by
        rw [hid, hlast]
        exact Nat.ne_of_gt (Nat.lt_succ_of_le hle)
      rw [hroster, Table.get?_insert, if_neg hne]
    refine hnote.departed hold now rfl (by rw [← hcleared]; rfl) ?_ ?_
    · exact (hkept old.id old hold).trans hgone
    · intro i o hne ho
      exact (hkept i o ho).trans (hothers i o hne ho)

/-- Whoever is not among those that a sweep ends first is still there. -/
theorem foldl_evict (h : Sound none s) {o : Session}
    (ho : s.roster.sessions.get? x = some o) (now : Moment)
    (ids : List SessionId) (hx : x ∉ ids) :
    Sound none (ids.foldl (fun s id => s.evict id now) s)
      ∧ (ids.foldl (fun s id => s.evict id now)
          s).roster.sessions.get? x = some o := by
  induction ids generalizing s with
  | nil => exact ⟨h, ho⟩
  | cons id ids ih =>
    obtain ⟨hne, hrest⟩ := not_or.1 (mt List.mem_cons.2 hx)
    have hmoves : Moves (fun _ => True) none s none (s.evict id now) :=
      .evict h now trivial fun _ _ => trivial
    refine ih (h.moves hmoves) ?_ hrest
    show (s.evict id now).roster.sessions.get? x = some o
    unfold State.evict
    split
    · exact endSession_others _ now hne ho
    · exact ho

theorem departed_evicted (h : Sound none s)
    (hlive : ∃ o, s.roster.sessions.get? x = some o) (now : Moment) :
    ∃ o, s.roster.sessions.get? x = some o
      ∧ Departed x o.role now s (s.evict x now) := by
  obtain ⟨o, ho⟩ := hlive
  refine ⟨o, ho, ?_⟩
  have hcount : Sound none (State.notify { s with
      evictions := s.evictions + 1 } x "heartbeat timeout") :=
    h.move (.aside _ s.incompleteSince _)
  have hevict : s.evict x now = (State.notify { s with
      evictions := s.evictions + 1 } x "heartbeat timeout").endSession x
        now :=
    if_pos (Option.isSome_iff_exists.2 ⟨o, ho⟩)
  rw [hevict]
  exact hcount.departed ho now rfl rfl (State.endSession_gone _ _ _)
    fun i o' hne ho' => endSession_others _ now hne ho'

end Sound

/-- The end of a session takes away what the session had, frees what it
held, serves who waited for it, and does nothing else. -/
theorem teardown_exact (settings : Settings) (inputs : List Input)
    {x : SessionId} {now : Moment} {u t : State}
    (h : Ending ((State.new settings).run inputs) x now u t) :
    ∃ o, u.roster.sessions.get? x = some o
      ∧ Departed x o.role now u t := by
  have hs : Sound none ((State.new settings).run inputs) :=
    .reached settings inputs
  cases h with
  | disconnected hlive =>
    obtain ⟨o, ho⟩ := Option.isSome_iff_exists.1 hlive
    refine ⟨o, ho, ?_⟩
    unfold State.step
    dsimp only
    rw [Action.disconnect_apply, Roster.get_eq_ok.2 ho]
    exact hs.departed ho now rfl rfl (State.endSession_gone _ _ _)
      fun i o' hne ho' => Sound.endSession_others _ now hne ho'
  | asked hlive =>
    obtain ⟨o, ho⟩ := Option.isSome_iff_exists.1 hlive
    exact ⟨o, ho, hs.departed_asked ho now⟩
  | @replaced old name role hn hx =>
    subst hx
    exact ⟨old, hs.departed_replaced role hn now⟩
  | @evicted before after hexpired =>
    have hnodup := hs.attended.roster.nodup_expired now
    have hmem : x ∈ ((State.new settings).run inputs).roster.expired
        now := by
      rw [hexpired]
      exact List.mem_append_right before List.mem_cons_self
    rw [hexpired] at hnodup
    have hnot : x ∉ before := fun hin =>
      (List.nodup_append.1 hnodup).2.2 x hin x List.mem_cons_self rfl
    obtain ⟨o, ho, -⟩ := hs.attended.roster.mem_expired.1 hmem
    obtain ⟨hu, hou⟩ := hs.foldl_evict ho now before hnot
    exact hu.departed_evicted ⟨o, hou⟩ now

/-- A client leaves while it holds a place, its name is taken over by
another client, or it outlives the exporter of what it has bound. -/
theorem teardown_exact_board :
    let clock (ms : Nat) : Moment := ⟨ms, ⟨2024, 1, 1, 12, 0, 0, 0⟩⟩
    let s := (State.new {}).run
      (booking ++ [.execute 2 (.acquire "board") (clock 20000)])
    let later := clock 45000
    (s.roster.expired later = [1]
        ∧ s.places.boundBy 2 = [⟨"bench", "rack", "SysfsGPIO", "led"⟩])
      ∧ (∃ o, s.roster.sessions.get? 2 = some o
        ∧ Departed 2 o.role later s (s.step (.disconnect 2 later)))
      ∧ (∃ o, s.roster.sessions.get? 2 = some o
        ∧ Departed 2 o.role later s
            (s.step (.register "alice" .client later)))
      ∧ ∃ o, s.roster.sessions.get? 1 = some o
        ∧ Departed 1 o.role later s (s.evict 1 later) := by
  intro clock s later
  obtain ⟨hexpired, hbound, hlive, hsome, hid⟩ :
      s.roster.expired later = [1]
        ∧ s.places.boundBy 2 = [⟨"bench", "rack", "SysfsGPIO", "led"⟩]
        ∧ s.isLive 2 = true
        ∧ (s.roster.named? "alice").isSome = true
        ∧ (s.roster.named? "alice").map (·.id) = some 2 := by
    decide +kernel +revert
  obtain ⟨old, hold⟩ := Option.isSome_iff_exists.1 hsome
  have hx : old.id = 2 := by simpa [hold] using hid
  have hfirst : s.roster.expired later = [] ++ 1 :: [] := hexpired
  exact ⟨⟨hexpired, hbound⟩,
    teardown_exact {} _ (.disconnected hlive),
    teardown_exact {} _ (.replaced "alice" .client hold hx),
    teardown_exact {} _ (.evicted hfirst)⟩

end Coordinator

end LabLease
