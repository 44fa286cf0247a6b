/-
What is stored is what was sent: if all that comes in is proper, then so
is everything that the registries store and everything that they report.

A change of a registry puts some of what it was given beside what it had
before, under new flags and versions, which no one asks to be proper. So
each of these laws only says where the parts of a value come from: from
the registry before, or from the request.
-/
import LabLease.Proofs.Table
import LabLease.Proofs.Wire.Lease
import LabLease.Registry.Places
import LabLease.Registry.Queue
import LabLease.Registry.Roster

namespace LabLease

-- =============================================================== answers

/-- Whatever a computation grants is of some kind. -/
structure Grants {α : Type} (Q : α → Prop) (r : Except Refusal α) :
    Prop where
  granted : ∀ v, r = .ok v → Q v

namespace Grants

variable {α β : Type} {Q : α → Prop} {R : β → Prop}

/-- A value of the kind may be granted. -/
theorem ok {v : α} (h : Q v) : Grants Q (.ok v) := by
  refine ⟨fun w hw => ?_⟩
  cases hw
  exact h

/-- A refusal grants nothing, so there is nothing to ask of it. -/
theorem error (e : Refusal) : Grants Q (.error e) := ⟨nofun⟩

/-- A computation goes on with what was granted, and with nothing else. -/
theorem bind {r : Except Refusal α} {f : α → Except Refusal β}
    (h : Grants Q r) (hf : ∀ v, Q v → Grants R (f v)) :
    Grants R (r >>= f) := by
  cases r with
  | error e => exact .error e
  | ok v => exact hf v (h.granted v rfl)

/-- An invariant of a loop that may stop at a refusal holds of the state
it ends with. -/
theorem foldlM {f : β → α → Except Refusal β} {as : List α} {b : β}
    (hb : R b) (hf : ∀ b, R b → ∀ a ∈ as, Grants R (f b a)) :
    Grants R (as.foldlM f b) := by
  induction as generalizing b with
  | nil => exact .ok hb
  | cons a as ih =>
    rw [List.foldlM_cons]
    exact (hf b hb a List.mem_cons_self).bind fun b' hb' =>
      ih hb' fun b hb a ha => hf b hb a (List.mem_cons_of_mem _ ha)

end Grants

-- ============================================================= inventory

/-- A change of the inventory is proper if what it carries is. -/
def ResourceChange.Proper : ResourceChange → Prop
  | .upserted r => r.Proper
  | .removed _ => True

namespace Inventory

/-- Every published resource is proper. -/
def Proper (inv : Inventory) : Prop :=
  inv.entries.All fun e => e.resource.Proper

variable {inv : Inventory}

/-- The listing shows what the entries carry. -/
theorem Proper.all (h : inv.Proper) : ∀ r ∈ inv.all, r.Proper := by
  intro r hr
  obtain ⟨e, he, rfl⟩ := List.mem_map.1 hr
  exact h e he

/-- The table of what a publication announces carries the parameters that
were sent. -/
theorem announced_proper (exporter : String) {specs : List ResourceSpec}
    (h : ∀ s ∈ specs, s.Proper) :
    Grants (Table.All ResourceParams.Proper) (announced exporter specs) := by
  refine Grants.foldlM .empty fun t ht spec hspec => ?_
  dsimp only
  split
  · exact .error _
  · exact .ok (ht.insert _ (h spec hspec))

/-- An entry is replaced by what was sent or is left, so the report of it
carries what was sent. -/
theorem Proper.upsert (h : inv.Proper) (owner : SessionId)
    (id : ResourceId) {params : ResourceParams} (hp : params.Proper) :
    (inv.upsert owner id params).1.Proper
      ∧ ∀ c ∈ (inv.upsert owner id params).2, c.Proper := by
  unfold Inventory.upsert
  split
  · split
    · exact ⟨h, nofun⟩
    · exact ⟨Table.All.insert h id hp, List.forall_mem_singleton.2 hp⟩
  · exact ⟨Table.All.insert h id hp, List.forall_mem_singleton.2 hp⟩

/-- One entry after another, each into the inventory the last one left. -/
theorem Proper.upsertAll (h : inv.Proper) (owner : SessionId)
    {entries : List (ResourceId × ResourceParams)}
    (hp : ∀ e ∈ entries, e.2.Proper) :
    (inv.upsertAll owner entries).1.Proper
      ∧ ∀ c ∈ (inv.upsertAll owner entries).2, c.Proper := by
  induction entries generalizing inv with
  | nil => exact ⟨h, nofun⟩
  | cons e entries ih =>
    rw [List.forall_mem_cons] at hp
    have hone := h.upsert owner e.1 hp.1
    have hrest := ih hone.1 hp.2
    exact ⟨hrest.1, List.forall_mem_append.2 ⟨hone.2, hrest.2⟩⟩

/-- Removals take entries away, and their reports carry ids only. -/
theorem Proper.removeAll (h : inv.Proper) (ids : List ResourceId) :
    (inv.removeAll ids).1.Proper
      ∧ ∀ c ∈ (inv.removeAll ids).2, c.Proper := by
  refine ⟨?_, fun c hc => ?_⟩
  · exact List.foldlRecOn ids _ h fun _ hinv id _ =>
      Table.All.erase hinv id
  · obtain ⟨id, -, rfl⟩ := List.mem_map.1 hc
    exact trivial

/-- A publication removes what it no longer names and puts the rest in:
the removals are reported before the rest. -/
theorem Proper.publish (h : inv.Proper) (exporter : String)
    (owner : SessionId) {specs : List ResourceSpec}
    (hspecs : ∀ s ∈ specs, s.Proper) :
    Grants (fun out => (∀ c ∈ out.1, c.Proper) ∧ out.2.Proper)
      (inv.publish exporter owner specs) := by
  unfold Inventory.publish
  refine (announced_proper exporter hspecs).bind fun incoming hin => ?_
  split
  · exact .error _
  · have hremoved := h.removeAll (inv.entries.filter fun id e =>
      e.owner = owner && id.exporter = exporter
        && !incoming.contains id).keys
    have hentries : ∀ e ∈ incoming.entries, e.2.Proper := fun e he =>
      hin.entry he
    have hupserted := hremoved.1.upsertAll owner hentries
    exact .ok ⟨List.forall_mem_append.2 ⟨hremoved.2, hupserted.2⟩,
      hupserted.1⟩

/-- A withdrawal that is granted is a removal. -/
theorem Proper.withdraw (h : inv.Proper) (owner : SessionId)
    (ids : List ResourceId) :
    Grants (fun out => (∀ c ∈ out.1, c.Proper) ∧ out.2.Proper)
      (inv.withdraw owner ids) := by
  unfold Inventory.withdraw
  split
  · exact .error _
  · exact .ok (h.removeAll _).symm

/-- Whatever a session leaves behind is removed. -/
theorem Proper.removeOwner (h : inv.Proper) (owner : SessionId) :
    (inv.removeOwner owner).1.Proper
      ∧ ∀ c ∈ (inv.removeOwner owner).2, c.Proper :=
  h.removeAll _

/-- The mark of a resource is no part of its parameters. -/
theorem Proper.setAcquired (h : inv.Proper) (id : ResourceId)
    (acquired : Bool) :
    (inv.setAcquired id acquired).1.Proper
      ∧ ∀ c, (inv.setAcquired id acquired).2 = some c → c.Proper := by
  unfold Inventory.setAcquired
  split
  · exact ⟨h, nofun⟩
  · next known hknown =>
    have hr : known.resource.Proper := Table.All.get h hknown
    split
    · exact ⟨h, nofun⟩
    · refine ⟨Table.All.insert h id hr, ?_⟩
      rintro c ⟨⟩
      exact hr

end Inventory

-- ================================================================ places

/-- A place that is changed at a day of the calendar stays proper. -/
theorem Place.Proper.touched {p : Place} {date : Timestamp} (h : p.Proper)
    (hdate : date.InCalendar) : (p.touched date).Proper :=
  ⟨h.patterns, h.created, hdate⟩

namespace Places

/-- Every place is proper. -/
def Proper (ps : Places) : Prop := ps.entries.All Place.Proper

variable {ps : Places} {date : Timestamp}

/-- A place that is found is one of those stored. -/
theorem Proper.get (h : ps.Proper) (name : String) :
    Grants Place.Proper (ps.get name) := by
  unfold Places.get
  split
  · next p hp => exact .ok (Table.All.get h hp)
  · exact .error _

/-- Nobody holds it, and it is still one of those stored. -/
theorem Proper.getUnheld (h : ps.Proper) (name : String) :
    Grants Place.Proper (ps.getUnheld name) := by
  unfold Places.getUnheld
  refine (h.get name).bind fun p hp => ?_
  split
  · exact .error _
  · exact .ok hp

/-- A view shows a stored place, and the ids that it adds are read off
the inventory. -/
theorem Proper.view (h : ps.Proper) (inv : Inventory) (name : String) :
    Grants PlaceView.Proper (ps.view inv name) :=
  (h.get name).bind fun _ hp => .ok hp

/-- All places are shown, each as it is stored. -/
theorem Proper.views (h : ps.Proper) (inv : Inventory) :
    ∀ v ∈ ps.views inv, v.Proper := by
  intro v hv
  obtain ⟨p, hp, rfl⟩ := List.mem_map.1 hv
  exact h p hp

/-- A proper place that is stored anew bears the day of the change. -/
theorem Proper.store (h : ps.Proper) (name : String) {p : Place}
    (hp : p.Proper) (hdate : date.InCalendar) :
    Proper ⟨ps.entries.insert name (p.touched date)⟩ :=
  Table.All.insert h name (hp.touched hdate)

/-- A new place has the patterns it was sent and the day of its
creation. -/
theorem Proper.create (h : ps.Proper) (name : String)
    {patterns : List ResourcePattern} (tags : Table String String)
    (hpatterns : ∀ m ∈ patterns, m.Written) (hdate : date.InCalendar) :
    Grants (fun out => out.1.Proper ∧ out.2.Proper)
      (ps.create name patterns tags date) := by
  have hp : (Place.new name patterns tags date).Proper :=
    ⟨hpatterns, hdate, hdate⟩
  unfold Places.create
  split
  · exact .error _
  · split
    · exact .error _
    · exact .ok ⟨hp, Table.All.insert h name hp⟩

/-- A deleted place is one less to ask about. -/
theorem Proper.delete (h : ps.Proper) (name : String) :
    Grants Proper (ps.delete name) :=
  (h.getUnheld name).bind fun _ _ => .ok (Table.All.erase h name)

/-- A holder and what is bound come to a place that keeps its patterns. -/
theorem Proper.acquire (h : ps.Proper) (name : String) (holder : Holder)
    (inv : Inventory) (available : Resource → Bool)
    (hdate : date.InCalendar) :
    Grants (fun out => out.2.Proper)
      (ps.acquire name holder inv available date) := by
  unfold Places.acquire
  refine (h.get name).bind fun p hp => ?_
  cases p.holder with
  | some held => exact .error _
  | none =>
    dsimp only
    split
    · exact .error _
    · split
      · exact .error _
      · exact .ok (h.store name ⟨hp.patterns, hp.created, hp.changed⟩ hdate)

/-- A place that is given back keeps its patterns. -/
theorem Proper.release (h : ps.Proper) (name : String)
    (session : SessionId) (force : Bool) (hdate : date.InCalendar) :
    Grants (fun out => out.2.Proper)
      (ps.release name session force date) := by
  unfold Places.release
  refine (h.get name).bind fun p hp => ?_
  split
  · exact .error _
  · split
    · exact .error _
    · exact .ok (h.store name ⟨hp.patterns, hp.created, hp.changed⟩ hdate)

/-- A place has one pattern more, which was sent. -/
theorem Proper.addMatch (h : ps.Proper) (name : String)
    {pattern : ResourcePattern} (hpattern : pattern.Written)
    (hdate : date.InCalendar) :
    Grants Proper (ps.addMatch name pattern date) := by
  unfold Places.addMatch
  refine (h.getUnheld name).bind fun p hp => ?_
  split
  · exact .error _
  · have hpatterns : ∀ m ∈ p.patterns ++ [pattern], m.Written :=
      List.forall_mem_append.2
        ⟨hp.patterns, List.forall_mem_singleton.2 hpattern⟩
    exact .ok (h.store name ⟨hpatterns, hp.created, hp.changed⟩ hdate)

/-- A place has some of the patterns it had. -/
theorem Proper.deleteMatch (h : ps.Proper) (name : String)
    (pattern : ResourcePattern) (hdate : date.InCalendar) :
    Grants Proper (ps.deleteMatch name pattern date) := by
  unfold Places.deleteMatch
  refine (h.getUnheld name).bind fun p hp => ?_
  split
  · exact .error _
  · have hpatterns : ∀ m ∈ p.patterns.filter (· ≠ pattern), m.Written :=
      fun m hm => hp.patterns m (List.mem_of_mem_filter hm)
    exact .ok (h.store name ⟨hpatterns, hp.created, hp.changed⟩ hdate)

/-- Tags are no part of what is asked of a place. -/
theorem Proper.setTags (h : ps.Proper) (name : String)
    (tags : Table String String) (hdate : date.InCalendar) :
    Grants Proper (ps.setTags name tags date) :=
  (h.get name).bind fun _ hp =>
    .ok (h.store name ⟨hp.patterns, hp.created, hp.changed⟩ hdate)

/-- Nor is the comment. -/
theorem Proper.setComment (h : ps.Proper) (name comment : String)
    (hdate : date.InCalendar) :
    Grants Proper (ps.setComment name comment date) :=
  (h.get name).bind fun _ hp =>
    .ok (h.store name ⟨hp.patterns, hp.created, hp.changed⟩ hdate)

end Places

-- ========================================================== reservations

/-- A step of its life leaves what a reservation asked for. -/
theorem Reservation.Proper.transition {r : Reservation} (h : r.Proper)
    (state : ReservationState) : (r.transition state).Proper :=
  ⟨h.filters, h.priority, h.created⟩

namespace Queue

/-- Every reservation is proper. -/
def Proper (q : Queue) : Prop :=
  q.entries.All fun e => e.reservation.Proper

variable {q : Queue}

/-- The owner finds an entry of the queue. -/
theorem Proper.getOwned (h : q.Proper) (id : String)
    (session : SessionId) :
    Grants (fun e => e.reservation.Proper) (q.getOwned id session) := by
  unfold Queue.getOwned Queue.getEntry
  refine Grants.bind (Q := fun e => e.reservation.Proper) ?_ fun e he => ?_
  · split
    · next e he => exact .ok (Table.All.get h he)
    · exact .error _
  · split
    · exact .error _
    · exact .ok he

/-- So does anyone who only looks at it. -/
theorem Proper.get (h : q.Proper) (id : String) :
    Grants Reservation.Proper (q.get id) := by
  unfold Queue.get Queue.getEntry
  refine Grants.bind (Q := fun e => e.reservation.Proper) ?_ fun e he =>
    .ok he
  split
  · next e he => exact .ok (Table.All.get h he)
  · exact .error _

/-- The listing shows the queue in another order. -/
theorem Proper.list (h : q.Proper) : ∀ r ∈ q.list, r.Proper := by
  intro r hr
  obtain ⟨e, he, rfl⟩ := List.mem_map.1 hr
  exact h e (List.mem_mergeSort.1 he)

/-- A proper entry may be put where it belongs. -/
theorem Proper.put (h : q.Proper) {e : QueueEntry}
    (he : e.reservation.Proper) : (q.put e).Proper :=
  Table.All.insert h e.id he

/-- And so may a list of them. -/
theorem Proper.putAll (h : q.Proper) {es : List QueueEntry}
    (hes : ∀ e ∈ es, e.reservation.Proper) :
    (es.foldl Queue.put q).Proper :=
  List.foldlRecOn es _ h fun _ hq e he => Proper.put hq (hes e he)

/-- What some entries become is reported and stored. -/
theorem Proper.changeWhere (h : q.Proper) (test : QueueEntry → Bool)
    {f : QueueEntry → QueueEntry}
    (hf : ∀ e, e.reservation.Proper → (f e).reservation.Proper) :
    (∀ r ∈ (q.changeWhere test f).1, r.Proper)
      ∧ (q.changeWhere test f).2.Proper := by
  refine ⟨fun r hr => ?_, Table.All.mapValues h fun _ e he => ?_⟩
  · obtain ⟨e', he', rfl⟩ := List.mem_map.1 hr
    obtain ⟨e, he, rfl⟩ := List.mem_map.1 he'
    exact hf e (h e (List.mem_of_mem_filter he))
  · split
    · exact hf e he
    · exact he

/-- A new reservation asks for what was sent, at the day it was sent. -/
theorem Proper.create (h : q.Proper) (owner : Holder)
    {filters : List ResourcePattern} {priority : Int} {now : Moment}
    (hfilters : ∀ m ∈ filters, m.Written) (hpriority : IsPriority priority)
    (hnow : now.date.InCalendar) :
    Grants (fun out => out.1.Proper ∧ out.2.Proper)
      (q.create owner filters priority now) := by
  have hr : (Reservation.new (q.created + 1) owner filters priority
      now.date).Proper := ⟨hfilters, hpriority, hnow⟩
  unfold Queue.create
  split
  · exact .error _
  · exact .ok ⟨hr, Table.All.insert h _ hr⟩

/-- A reservation that is cancelled for the first time is reported, any
other is left. -/
theorem Proper.cancel (h : q.Proper) (id : String) (session : SessionId)
    (now : Moment) :
    Grants (fun out => (∀ r, out.1 = some r → r.Proper) ∧ out.2.Proper)
      (q.cancel id session now) := by
  unfold Queue.cancel
  refine (h.getOwned id session).bind fun e he => ?_
  split
  · exact .ok ⟨nofun, h⟩
  · have hr := he.transition .cancelled
    refine .ok ⟨?_, Table.All.insert h id hr⟩
    rintro r ⟨⟩
    exact hr

/-- A poll answers with the stored entry and moves its deadline only. -/
theorem Proper.poll (h : q.Proper) (id : String) (session : SessionId)
    (now : Moment) :
    Grants (fun out => out.1.Proper ∧ out.2.Proper)
      (q.poll id session now) := by
  unfold Queue.poll
  refine (h.getOwned id session).bind fun e he => ?_
  split
  · exact .ok ⟨he, Table.All.insert h id he⟩
  · exact .ok ⟨he, h⟩

/-- Serving the waiting ones moves some of them to allocated, whatever is
free. -/
theorem serve_proper (inv : Inventory) (free : Resource → Bool)
    (deadline : Nat) (taken : List ResourceId) {es : List QueueEntry}
    (h : ∀ e ∈ es, e.reservation.Proper) :
    ∀ e ∈ serve inv free deadline taken es, e.reservation.Proper := by
  induction es generalizing taken with
  | nil => exact nofun
  | cons e es ih =>
    rw [List.forall_mem_cons] at h
    rw [serve]
    split
    · next ids _ =>
      exact List.forall_mem_cons.2
        ⟨⟨h.1.filters, h.1.priority, h.1.created⟩, ih _ h.2⟩
    · exact ih _ h.2

/-- Those that are served are reported and take their old places. -/
theorem Proper.rescan (h : q.Proper) (inv : Inventory)
    (free : Resource → Bool) (skip : List String) (now : Moment) :
    (∀ r ∈ (q.rescan inv free skip now).1, r.Proper)
      ∧ (q.rescan inv free skip now).2.Proper := by
  have hwaiting : ∀ e ∈ q.waiting skip, e.reservation.Proper := fun e he =>
    h e (List.mem_of_mem_filter (List.mem_mergeSort.1 he))
  have hserved := serve_proper inv free (now.ticks + q.gracePeriod) q.taken
    hwaiting
  refine ⟨fun r hr => ?_, h.putAll hserved⟩
  obtain ⟨e, he, rfl⟩ := List.mem_map.1 hr
  exact hserved e he

/-- Allocations that lapse go back to waiting one by one. -/
theorem Proper.lapseAll (h : q.Proper) (now : Moment)
    {es : List QueueEntry} (hes : ∀ e ∈ es, e.reservation.Proper) :
    (∀ r ∈ (lapseAll now q es).1, r.Proper)
      ∧ (lapseAll now q es).2.Proper := by
  induction es generalizing q with
  | nil => exact ⟨nofun, h⟩
  | cons e es ih =>
    rw [List.forall_mem_cons] at hes
    have hr := hes.1.transition .waiting
    have hlapsed : (lapse now q e).2.Proper := Table.All.insert h _ hr
    have hrest := ih hlapsed hes.2
    exact ⟨List.forall_mem_cons.2 ⟨hr, hrest.1⟩, hrest.2⟩

/-- A sweep reports what it lets expire before what it puts back. -/
theorem Proper.expire (h : q.Proper) (now : Moment) :
    (∀ r ∈ (q.expire now).1.changed, r.Proper)
      ∧ (q.expire now).2.Proper := by
  have hlapsed : ∀ e ∈ q.all.filter (isLapsed now), e.reservation.Proper :=
    fun e he => h e (List.mem_of_mem_filter he)
  have hback := Proper.lapseAll (q := { q with entries := _ })
    (Table.All.filter h fun _ e =>
      isLapsed now e || !(isUnpolled now e || isRetired now e)) now hlapsed
  refine ⟨List.forall_mem_append.2 ⟨fun r hr => ?_, hback.1⟩, hback.2⟩
  obtain ⟨e, he, rfl⟩ := List.mem_map.1 hr
  exact (h e (List.mem_of_mem_filter he)).transition .expired

/-- An allocation that is taken up is one that is acquired. -/
theorem Proper.convert (h : q.Proper) (session : SessionId)
    (bound : List ResourceId) (now : Moment) :
    (∀ r ∈ (q.convert session bound now).1, r.Proper)
      ∧ (q.convert session bound now).2.Proper :=
  h.changeWhere _ fun _ he => he.transition .acquired

/-- An allocation that lost a resource waits again. -/
theorem Proper.invalidate (h : q.Proper) (removed : List ResourceId) :
    (∀ r ∈ (q.invalidate removed).1, r.Proper)
      ∧ (q.invalidate removed).2.Proper :=
  h.changeWhere _ fun _ he => he.transition .waiting

/-- The reservations of a session that ends are cancelled and gone. -/
theorem Proper.removeSession (h : q.Proper) (session : SessionId) :
    (∀ r ∈ (q.removeSession session).1, r.Proper)
      ∧ (q.removeSession session).2.Proper := by
  refine ⟨fun r hr => ?_, Table.All.filter h _⟩
  obtain ⟨e, he, rfl⟩ := List.mem_map.1 hr
  exact (h e (List.mem_of_mem_filter he)).transition .cancelled

end Queue

-- ================================================================ roster

namespace Roster

/-- Every session began on a day of the calendar. -/
def Proper (r : Roster) : Prop :=
  r.sessions.All fun o => o.connected.InCalendar

variable {r : Roster}

/-- The listing shows when each session began. -/
theorem Proper.list (h : r.Proper) : ∀ o ∈ r.list, o.Proper := by
  intro i hi
  obtain ⟨o, ho, rfl⟩ := List.mem_map.1 hi
  exact h o ho

/-- A new session begins at the day of its request. -/
theorem Proper.register (h : r.Proper) (name : String) (role : Role)
    {now : Moment} (hnow : now.date.InCalendar) :
    Grants (fun out => out.2.Proper) (r.register name role now) := by
  unfold Roster.register
  split
  · exact .error _
  · split
    · exact .error _
    · exact .ok (Table.All.insert h _ hnow)

/-- A heartbeat moves the time a session was last heard of, not the day
it began. -/
theorem Proper.heartbeat (h : r.Proper) (id : SessionId) (now : Moment) :
    Grants Proper (r.heartbeat id now) := by
  unfold Roster.heartbeat Roster.get
  refine Grants.bind (Q := fun o => o.connected.InCalendar) ?_ fun o ho =>
    .ok (Table.All.insert h id ho)
  split
  · next o ho => exact .ok (Table.All.get h ho)
  · exact .error _

/-- An edit that leaves the first day of every session is as good as
none. -/
theorem Proper.edit (h : r.Proper) (id : SessionId) {f : Session → Session}
    (hf : ∀ o, (f o).connected = o.connected) : (r.edit id f).Proper := by
  refine Table.All.adjust h id fun o ho => ?_
  rw [hf]
  exact ho

/-- A session that is removed is one less to ask about. -/
theorem Proper.remove (h : r.Proper) (id : SessionId) :
    (r.remove id).Proper := by
  unfold Roster.remove
  split
  · exact Table.All.erase h id
  · exact h

end Roster

end LabLease
