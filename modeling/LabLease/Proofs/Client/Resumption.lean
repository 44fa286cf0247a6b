/-
A client that comes to another coordinator than the one it has followed,
as it does when the coordinator was started anew.

All that the client has to show is the number of the last event it has
applied, and the other coordinator has numbers of its own. A number that
its journal has not reached yet, or no longer keeps, is found out and
answered with everything. Any other number is taken for its own: the
client is sent the events behind it and applies them to what it knew of
the coordinator before. What these events are about is right after that,
and all else is as it was (`resumption_exact`), so that the replica may be
of neither coordinator (`resumption_mixes`).
-/
import LabLease.Client.Agent
import LabLease.Coordinator.Hub
import LabLease.Proofs.Coordinator.Journal
import LabLease.Proofs.Coordinator.Stream

namespace LabLease

/-- What a change can be about. -/
inductive Subject where
  | resource (id : ResourceId)
  | place (name : String)
  | reservation (id : String)
deriving DecidableEq

def Change.subject : Change → Subject
  | .resource x => .resource x.id
  | .resourceRemoved id => .resource id
  | .place v => .place v.place.name
  | .placeDeleted name => .place name
  | .reservation x => .reservation x.id

namespace Replica

/-- A client subscribes: it takes what the subscription starts with. -/
def resume (r : Replica) (start : Coordinator.State.Start) : Replica :=
  match start.push? with
  | some p => (r.takePush (some p)).2
  | none => r

/-- Two replicas know the same about something. -/
def Alike (r r' : Replica) : Subject → Prop
  | .resource id => r.resources.get? id = r'.resources.get? id
  | .place name => r.places.get? name = r'.places.get? name
  | .reservation id => r.reservations.get? id = r'.reservations.get? id

variable {r r' : Replica} {x : Subject}

theorem Alike.refl (r : Replica) (x : Subject) : r.Alike r x := by
  cases x <;> rfl

theorem Alike.symm (h : r.Alike r' x) : r'.Alike r x := by
  cases x <;> exact Eq.symm h

theorem Alike.trans {r'' : Replica} (h : r.Alike r' x)
    (h' : r'.Alike r'' x) : r.Alike r'' x := by
  cases x <;> exact Eq.trans h h'

/-- A change leaves what it is not about. -/
theorem applyChange_alike {c : Change} (h : c.subject ≠ x) :
    (r.applyChange c).Alike r x := by
  cases c <;> cases x
  case resource.resource y id =>
    exact (Table.get?_insert ..).trans (if_neg fun heq =>
      h (congrArg Subject.resource heq))
  case resourceRemoved.resource k id =>
    exact (Table.get?_erase ..).trans (if_neg fun heq =>
      h (congrArg Subject.resource heq))
  case place.place v name =>
    exact (Table.get?_insert ..).trans (if_neg fun heq =>
      h (congrArg Subject.place heq))
  case placeDeleted.place k name =>
    exact (Table.get?_erase ..).trans (if_neg fun heq =>
      h (congrArg Subject.place heq))
  case reservation.reservation y id =>
    exact (Table.get?_insert ..).trans (if_neg fun heq =>
      h (congrArg Subject.reservation heq))
  all_goals rfl

/-- What is known of the subject of a change is what it says. -/
theorem applyChange_subject (r r' : Replica) (c : Change) :
    (r.applyChange c).Alike (r'.applyChange c) c.subject := by
  cases c <;>
    simp only [Change.subject, Alike, applyChange, Table.get?_insert,
      Table.get?_erase, if_true]

theorem Alike.applyChange (h : r.Alike r' x) (c : Change) :
    (r.applyChange c).Alike (r'.applyChange c) x := by
  by_cases hx : c.subject = x
  · exact hx ▸ applyChange_subject r r' c
  · exact (applyChange_alike hx).trans
      (h.trans (applyChange_alike hx).symm)

theorem Alike.applyAll (h : r.Alike r' x) (cs : List Change) :
    (r.applyAll cs).Alike (r'.applyAll cs) x := by
  induction cs generalizing r r' with
  | nil => exact h
  | cons c cs ih => exact ih (h.applyChange c)

theorem applyAll_alike {cs : List Change} (h : x ∉ cs.map Change.subject) :
    (r.applyAll cs).Alike r x := by
  induction cs generalizing r with
  | nil => exact .refl r x
  | cons c cs ih =>
    rw [List.map_cons, List.mem_cons, not_or] at h
    exact (ih h.2).trans (applyChange_alike (Ne.symm h.1))

/-- What changes are about is known after them, whatever was known
before. -/
theorem applyAll_subject (r r' : Replica) {cs : List Change}
    (h : x ∈ cs.map Change.subject) :
    (r.applyAll cs).Alike (r'.applyAll cs) x := by
  induction cs generalizing r r' with
  | nil => cases h
  | cons c cs ih =>
    rcases List.mem_cons.1 h with rfl | hmem
    · exact (applyChange_subject r r' c).applyAll cs
    · exact ih _ _ hmem

end Replica

namespace Coordinator

/-- A replica is right about something: it knows it as the state has
it. Of reservations the pending ones count. -/
def Agrees (r : Replica) (s : State) : Subject → Prop
  | .resource id => r.resources.get? id = s.inventory.get? id
  | .place name => r.places.get? name
    = (s.places.entries.get? name).map (·.view s.inventory)
  | .reservation id =>
    Queue.pendingOnly (r.reservations.get? id) = s.queue.pending? id

variable {r r' : Replica} {s : State} {x : Subject}

theorem mirrors_iff : Mirrors r s ↔ ∀ x, Agrees r s x := by
  refine ⟨fun h x => ?_, fun h => ⟨fun id => h (.resource id),
    fun n => h (.place n), fun id => h (.reservation id)⟩⟩
  cases x with
  | resource id => exact h.resources id
  | place name => exact h.places name
  | reservation id => exact h.reservations id

theorem Agrees.of_alike (h : Agrees r s x) (ha : r'.Alike r x) :
    Agrees r' s x := by
  cases x with
  | resource id => exact Eq.trans ha h
  | place name => exact Eq.trans ha h
  | reservation id => exact (congrArg Queue.pendingOnly ha).trans h

theorem agrees_congr (ha : r'.Alike r x) : Agrees r' s x ↔ Agrees r s x :=
  ⟨fun h => h.of_alike ha.symm, fun h => h.of_alike ha⟩

-- ================================================== the other coordinator

/-- A replica that has followed a coordinator has the number of its last
event. -/
theorem followed_lastEvent (settings : Settings)
    (before inputs : List Input) :
    let s := (State.new settings).run before
    ((Replica.ofSnapshot s.snapshot).applyEvents
      (s.appendedAll inputs)).2.lastEvent
        = some (s.run inputs).eventNumber := by
  intro s
  obtain ⟨cs, hj, hp, -⟩ :=
    (Sound.reached settings before).run_told inputs
  have hlast : (s.run inputs).eventNumber = s.eventNumber + cs.length :=
    (congrArg Journal.last hj).trans (Journal.extend_last _ cs)
  rw [hp, Replica.applyEvents_numbered _ cs rfl, hlast]
  rfl

/-- All that a coordinator has told since it was started. -/
theorem told_from_start (settings : Settings) (inputs : List Input) :
    let s := (State.new settings).run inputs
    ∃ cs, s.journal = (Journal.new settings.eventRetention).extend cs
      ∧ s.eventNumber = cs.length
      ∧ ∃ r : Replica, Mirrors (r.applyAll cs) s := by
  intro s
  have h := Sound.new settings
  obtain ⟨cs, hj, -, hm⟩ := h.run_told inputs
  refine ⟨cs, hj, ?_, _, hm _ h.mirrors_snapshot⟩
  exact (congrArg Journal.last hj).trans (Journal.last_extend _ cs)

theorem resume_replay {n : Nat} (hr : r.lastEvent = some n)
    (cs : List Change) :
    r.resume (.replay (numbered n cs))
      = { r.applyAll cs with lastEvent := some (n + cs.length) } := by
  cases cs with
  | nil =>
    show r = { r with lastEvent := some n }
    rw [← hr]
  | cons c cs =>
    have happlied := Replica.applyEvents_numbered r (c :: cs) hr
    show (r.takePush (some (.events (numbered n (c :: cs))))).2 = _
    unfold Replica.takePush
    dsimp only
    rw [happlied]
    rfl

/-- Events behind a number, applied to a copy that has come as far by
whatever way: it is right about what they are about, and all else in it is
as before. -/
theorem resume_behind {r r₀ : Replica} {n : Nat} {front behind : List Change}
    {t : State} (hr : r.lastEvent = some n)
    (hm : Mirrors (r₀.applyAll (front ++ behind)) t) :
    let resumed := r.resume (.replay (numbered n behind))
    resumed.lastEvent = some (n + behind.length)
      ∧ (∀ x ∈ behind.map Change.subject, Agrees resumed t x)
      ∧ ∀ x ∉ behind.map Change.subject, resumed.Alike r x := by
  intro resumed
  have hresumed : resumed = { r.applyAll behind with
      lastEvent := some (n + behind.length) } := resume_replay hr behind
  -- the number that was applied last is no look-up
  have halike : ∀ x, resumed.Alike (r.applyAll behind) x := by
    intro x
    rw [hresumed]
    cases x <;> rfl
  refine ⟨?_, fun x hx => ?_, fun x hx => ?_⟩
  · rw [hresumed]
  · have hstate := mirrors_iff.1 hm x
    rw [Replica.applyAll_append] at hstate
    exact hstate.of_alike
      ((halike x).trans (Replica.applyAll_subject _ _ hx))
  · exact (halike x).trans (Replica.applyAll_alike hx)

/-- A client that has followed one coordinator has the number of its last
event. Whatever a client knows, and by whatever way it has come to its
number, it has the number of another coordinator's last event once it has
subscribed to that one. If its own number is ahead of that, or so far
behind that not all that followed is kept, it is sent everything, and its
replica is right. Otherwise it is sent the events behind its number: it is
right about what these are about and knows all else as before, so it is
right altogether just if it was right about all else already. -/
theorem resumption_exact (settings settings' : Settings)
    (before inputs others : List Input) :
    let s := (State.new settings).run before
    let followed := ((Replica.ofSnapshot s.snapshot).applyEvents
      (s.appendedAll inputs)).2
    let t := (State.new settings').run others
    followed.lastEvent = some (s.run inputs).eventNumber
      ∧ ∀ (r : Replica) (n : Nat), r.lastEvent = some n →
        let start := t.subscribe r.lastEvent
        let resumed := r.resume start
        resumed.lastEvent = some t.eventNumber
          ∧ (start.isResync = true ↔ t.eventNumber < n
            ∨ n + max settings'.eventRetention 1 < t.eventNumber)
          ∧ match start with
            | .resync snapshot => snapshot = t.snapshot ∧ Mirrors resumed t
            | .replay events =>
              events.map (·.seq) = List.range' (n + 1) (t.eventNumber - n)
                ∧ (∀ x ∈ events.map (·.change.subject), Agrees resumed t x)
                ∧ (∀ x ∉ events.map (·.change.subject), resumed.Alike r x)
                ∧ (Mirrors resumed t
                  ↔ ∀ x ∉ events.map (·.change.subject), Agrees r t x) := by
  intro s followed t
  refine ⟨followed_lastEvent settings before inputs, fun r n hr => ?_⟩
  intro start resumed
  obtain ⟨cs, hj, hlast, r₀, hm⟩ := told_from_start settings' others
  have hsince : t.journal.since n = _ :=
    (congrArg (·.since n) hj).trans (Journal.since_extend _ n cs)
  have hstart : start = t.subscribe (some n) := congrArg t.subscribe hr
  unfold State.subscribe at hstart
  dsimp only at hstart
  rw [hsince] at hstart
  rw [show t.eventNumber = cs.length from hlast]
  by_cases hout : cs.length < n
      ∨ n + max settings'.eventRetention 1 < cs.length
  · rw [if_pos hout] at hstart
    have hresumed : resumed = .ofSnapshot t.snapshot := by
      show r.resume start = _
      rw [hstart]
      rfl
    have hright := (Sound.reached settings' others).mirrors_snapshot
    rw [hresumed, hstart]
    refine ⟨?_, iff_of_true rfl hout, rfl, hright⟩
    exact congrArg some hlast
  · rw [if_neg hout] at hstart
    rw [not_or, Nat.not_lt] at hout
    have hlength : n + (cs.drop n).length = cs.length := by
      rw [List.length_drop, Nat.add_sub_cancel' hout.1]
    have hevents : (numbered n (cs.drop n)).map (·.change.subject)
        = (cs.drop n).map Change.subject :=
      List.map_map.symm.trans
        (congrArg (List.map Change.subject) (map_change_numbered n _))
    have hresumed : resumed = r.resume (.replay (numbered n (cs.drop n))) :=
      congrArg r.resume hstart
    -- all of the journal would have come to what the state is
    rw [← List.take_append_drop n cs] at hm
    obtain ⟨hnumber, hsubject, hother⟩ := resume_behind hr hm
    rw [← hresumed] at hnumber hsubject hother
    rw [hstart]
    dsimp only
    rw [hevents, map_seq_numbered, List.length_drop]
    refine ⟨?_, iff_of_false Bool.false_ne_true ?_, rfl, hsubject,
      hother, mirrors_iff.trans ⟨fun h x hx => ?_, fun h x => ?_⟩⟩
    · rw [hnumber, hlength]
    · omega
    · exact (agrees_congr (hother x hx)).1 (h x)
    · by_cases hx : x ∈ (cs.drop n).map Change.subject
      · exact hsubject x hx
      · exact (agrees_congr (hother x hx)).2 (h x hx)

/-- A client has seen the one event of a coordinator, the led of a bench.
The next coordinator has told of the fan and the led of a rack by the time
the client is back, and sends it what comes behind its own first event.
The client still has the led of the bench, and never hears of the fan. -/
theorem resumption_mixes :
    let noon : Moment := ⟨0, ⟨2024, 1, 1, 12, 0, 0, 0⟩⟩
    let gpio (name : String) : ResourceSpec := ⟨"io", name, .sysfsGpio 7⟩
    let idOf (exporter name : String) : ResourceId :=
      ⟨exporter, "io", "SysfsGPIO", name⟩
    let s := (State.new {}).run [.register "bench" .exporter noon,
      .execute 1 (.setResources [gpio "led"]) noon]
    let t := (State.new {}).run [.register "rack" .exporter noon,
      .execute 1 (.setResources [gpio "led", gpio "fan"]) noon]
    let r := Replica.ofSnapshot s.snapshot
    let resumed := r.resume (t.subscribe r.lastEvent)
    r.lastEvent = some s.eventNumber
      ∧ resumed.lastEvent = some t.eventNumber
      ∧ resumed.resources.keys = [idOf "bench" "led", idOf "rack" "led"]
      ∧ t.inventory.all.map (·.id) = [idOf "rack" "fan", idOf "rack" "led"]
      ∧ ¬ Mirrors resumed t := by
  intro noon gpio idOf s t r resumed
  obtain ⟨hr, hresumed, hkeys, hids, hknown, hgone⟩ :
      r.lastEvent = some s.eventNumber
        ∧ resumed.lastEvent = some t.eventNumber
        ∧ resumed.resources.keys = [idOf "bench" "led", idOf "rack" "led"]
        ∧ t.inventory.all.map (·.id)
          = [idOf "rack" "fan", idOf "rack" "led"]
        ∧ (resumed.resources.get? (idOf "bench" "led")).isSome = true
        ∧ t.inventory.get? (idOf "bench" "led") = none := by
    decide +kernel
  refine ⟨hr, hresumed, hkeys, hids, fun h => ?_⟩
  rw [h.resources, hgone] at hknown
  cases hknown

end Coordinator

end LabLease
