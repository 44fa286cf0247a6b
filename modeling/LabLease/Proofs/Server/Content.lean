/-
All that the coordinator sends is proper, over all of its time and to
every peer, whatever the peers send to it. Only its clock has to show
days of the calendar.

What is sent is an answer or a push. An answer is proper because the
request was: it has been read from a line. A push waits in a mailbox
until it is taken out, and it was proper when it was put in.
-/
import LabLease.Proofs.Coordinator.Content
import LabLease.Proofs.Server.Switchboard
import LabLease.Proofs.Wire.Reading

namespace LabLease

open Coordinator

-- ================================================================ frames

/-- What a push carries is proper. -/
def Push.Proper : Push → Prop
  | .events es => ∀ e ∈ es, e.Proper
  | .resync s => s.Proper
  | .shutdown _ => True

namespace ServerFrame

/-- A push goes out as a frame of its own kind. -/
theorem ofPush_proper {p : Push} (h : p.Proper) : (ofPush p).Proper := by
  cases p <;> exact h

/-- An answer is a reply or an error, which may say anything. -/
theorem ofResult_proper (id : Nat) {r : Except Refusal Reply}
    (h : Grants Reply.Proper r) : (ofResult id r).Proper := by
  cases r with
  | ok reply => exact h.granted reply rfl
  | error e => exact trivial

end ServerFrame

namespace Coordinator

-- ============================================================= mailboxes

namespace Mailboxes

/-- Everything that waits is proper. -/
def Proper (m : Mailboxes) : Prop :=
  m.boxes.All fun box => ∀ p ∈ box.waiting, p.Proper

variable {m : Mailboxes}

/-- A new mailbox is empty. -/
theorem Proper.add (h : m.Proper) (session : SessionId) (capacity : Nat) :
    (m.add session capacity).Proper :=
  Table.All.insert h session nofun

/-- A mailbox is kept while somebody still reads or writes it, and is
dropped otherwise. -/
theorem Proper.keep (h : m.Proper) (session : SessionId) {box : Mailbox}
    (hbox : ∀ p ∈ box.waiting, p.Proper) :
    (m.keep session box).Proper := by
  unfold Mailboxes.keep
  split
  · exact Table.All.insert h session hbox
  · exact Table.All.erase h session

/-- A session that is detached may still read what waits for it. -/
theorem Proper.detach (h : m.Proper) (session : SessionId) :
    (m.detach session).Proper := by
  unfold Mailboxes.detach
  dsimp only
  split
  · next box hbox =>
    have hwaiting : ∀ p ∈ box.waiting, p.Proper := Table.All.get h hbox
    exact Proper.keep (m := { m with
      subscribed := m.subscribed.erase session }) h session hwaiting
  · exact h

/-- A push that does not fit is dropped with the subscription, so it
never waits. -/
theorem Proper.push (h : m.Proper) (session : SessionId) {p : Push}
    (hp : p.Proper) : (m.push session p).2.Proper := by
  unfold Mailboxes.push
  split
  · exact h
  · next box hbox =>
    have hwaiting : ∀ q ∈ box.waiting, q.Proper :=
      Table.All.get h (Option.filter_eq_some_iff.1 hbox).1
    split
    · exact h.detach session
    · split
      · exact Table.All.insert h session (List.forall_mem_append.2
          ⟨hwaiting, List.forall_mem_singleton.2 hp⟩)
      · exact Proper.detach (m := { m with dropped := m.dropped + 1 }) h
          session

/-- Events that could not be delivered leave the mailboxes as the failed
push did. -/
theorem Proper.sendTo (h : m.Proper) {events : List Event}
    (hevents : ∀ e ∈ events, e.Proper) (session : SessionId) :
    (sendTo events m session).Proper := by
  have hpush : (m.push session (.events events)).2.Proper :=
    h.push session hevents
  unfold Mailboxes.sendTo
  split
  · next m' heq =>
    rw [heq] at hpush
    exact hpush
  · next m' heq =>
    rw [heq] at hpush
    exact hpush

/-- The same events go to one subscriber after another. -/
theorem Proper.broadcast (h : m.Proper) {events : List Event}
    (hevents : ∀ e ∈ events, e.Proper) : (m.broadcast events).Proper := by
  unfold Mailboxes.broadcast
  split
  · exact h
  · exact List.foldlRecOn _ _ h fun _ hm session _ =>
      Proper.sendTo hm hevents session

/-- All that is taken out is proper, and so is what stays. -/
theorem Proper.take (h : m.Proper) (session : SessionId) :
    (∀ p ∈ (m.take session).1.pushes, p.Proper)
      ∧ (m.take session).2.Proper := by
  unfold Mailboxes.take
  split
  · next box hbox =>
    exact ⟨Table.All.get h hbox, Table.All.insert h session nofun⟩
  · exact ⟨nofun, h⟩

/-- Nobody will read what waited here. -/
theorem Proper.abandon (h : m.Proper) (session : SessionId) :
    (m.abandon session).Proper := by
  unfold Mailboxes.abandon
  split
  · exact h.keep session nofun
  · exact h

end Mailboxes

-- ================================================================== turns

/-- What a subscription begins with is proper. -/
theorem State.Proper.start {s : State} (h : s.Proper)
    (lastEvent : Option Nat) {p : Push}
    (hp : (s.subscribe lastEvent).push? = some p) : p.Proper := by
  have hresync : ∀ p, State.Start.push? (.resync s.snapshot) = some p
      → p.Proper := by
    rintro p ⟨⟩
    exact h.snapshot
  unfold State.subscribe at hp
  split at hp
  · exact hresync p hp
  · split at hp
    · next n events heq =>
      have hevents : ∀ e ∈ events, e.Proper := by
        unfold Journal.since at heq
        split at heq
        · cases heq
        · cases heq
          exact fun e he => h.journal e (List.mem_of_mem_filter he)
      cases events with
      | nil => cases hp
      | cons e events =>
        cases hp
        exact hevents
    · exact hresync p hp

namespace Hub

/-- What is stored and what waits is proper. -/
structure Proper (h : Hub) : Prop where
  state : h.state.Proper
  mailboxes : h.mailboxes.Proper

/-- What a hub comes to is proper, and what it answers is of some kind. -/
structure Leaves {α : Type} (Q : α → Prop) (out : Except Refusal α × Hub) :
    Prop where
  answer : Grants Q out.1
  left : out.2.Proper

variable {h : Hub} {α : Type} {Q : α → Prop} {now : Moment}

/-- A new hub has nothing stored and nobody listening. -/
theorem Proper.new (settings : Settings) : (Hub.new settings).Proper :=
  ⟨.new settings, .empty⟩

/-- An action is run on the state alone. -/
theorem Proper.run (hh : h.Proper) {a : Action α} (ha : Action.Keeps Q a) :
    Leaves Q (h.run a) :=
  ⟨⟨ha.answer hh.state⟩, ha.left hh.state, hh.mailboxes⟩

/-- The last push tells a reason and nothing else. -/
theorem sayGoodbye_proper {m : Mailboxes} (h : m.Proper)
    (notice : SessionId × String) : (sayGoodbye m notice).Proper :=
  Mailboxes.Proper.detach (h.push notice.1 (p := .shutdown notice.2) trivial)
    notice.1

/-- At the end of a turn come the notices, the events, and then the
detaching of those that ended. -/
theorem Proper.deliver (hh : h.Proper) : h.deliver.Proper := by
  have hnotices : (h.state.notices.foldl sayGoodbye h.mailboxes).Proper :=
    List.foldlRecOn _ _ hh.mailboxes fun _ hm notice _ =>
      sayGoodbye_proper hm notice
  have hevents := hnotices.broadcast hh.state.pending
  have hstate : State.Proper { h.state with notices := [], pending := [] } :=
    ⟨hh.state.inventory, hh.state.places, hh.state.queue, hh.state.roster,
      hh.state.journal, nofun⟩
  exact ⟨hstate, List.foldlRecOn _ _ hevents fun _ hm id _ =>
    Mailboxes.Proper.detach hm id⟩

/-- A turn is one request between the count of messages and the delivery.
A hub that has shut down refuses it. -/
theorem Proper.turn (hh : h.Proper) {act : Hub → Except Refusal α × Hub}
    (hact : ∀ h : Hub, h.Proper → Leaves Q (act h)) :
    Leaves Q (h.turn act) := by
  have hcounted : Proper { h with messagesReceived := h.messagesReceived + 1 } :=
    ⟨hh.state, hh.mailboxes⟩
  unfold Hub.turn
  split
  · have hout := hact _ hcounted
    exact ⟨hout.answer, hout.left.deliver⟩
  · exact ⟨.error _, hh⟩

/-- A session that is registered is given an empty mailbox. -/
theorem Proper.register (hh : h.Proper) (name : String) (role : Role)
    (capacity : Nat) (hnow : now.date.InCalendar) :
    Leaves (fun _ => True) (h.register name role capacity now) := by
  refine hh.turn fun h hh => ?_
  have hrun := hh.run (Action.register_keeps name role hnow)
  split
  · next id h' heq =>
    rw [heq] at hrun
    exact ⟨.ok trivial, hrun.left.state, hrun.left.mailboxes.add id capacity⟩
  · next e h' heq =>
    rw [heq] at hrun
    exact ⟨.error e, hrun.left⟩

/-- A subscriber is pushed what was missed before it is answered. -/
theorem Proper.subscribe (hh : h.Proper) (session : SessionId)
    (lastEvent : Option Nat) (now : Moment) :
    Leaves Reply.Proper (h.subscribe session lastEvent now) := by
  have hrun := hh.run (Action.heartbeat_keeps session now)
  unfold Hub.subscribe
  split
  · next e h' heq =>
    rw [heq] at hrun
    exact ⟨.error e, hrun.left⟩
  · next h' heq =>
    rw [heq] at hrun
    have hh' : h'.Proper := hrun.left
    dsimp only
    split
    · exact ⟨.error _, hh'⟩
    · cases hp : (h'.state.subscribe lastEvent).push? with
      | none => exact ⟨.ok trivial, hh'.state, hh'.mailboxes⟩
      | some p =>
        -- what was missed goes into the mailbox first
        have hsent := hh'.mailboxes.push session (hh'.state.start _ hp)
        dsimp only
        split
        · exact ⟨.ok trivial, hh'.state, hsent⟩
        · exact ⟨.error _, hh'.state, hsent⟩

/-- What has been pushed already still waits. -/
theorem Proper.unsubscribe (hh : h.Proper) (session : SessionId)
    (now : Moment) : Leaves Reply.Proper (h.unsubscribe session now) := by
  have hrun := hh.run (Action.heartbeat_keeps session now)
  unfold Hub.unsubscribe
  split
  · next e h' heq =>
    rw [heq] at hrun
    exact ⟨.error e, hrun.left⟩
  · next h' heq =>
    rw [heq] at hrun
    exact ⟨.ok trivial, hrun.left.state, hrun.left.mailboxes⟩

/-- Subscriptions are the business of the hub, all else is an action. -/
theorem Proper.call (hh : h.Proper) (session : SessionId) {op : Operation}
    (hop : op.Proper) (hnow : now.date.InCalendar) :
    Leaves Reply.Proper (h.call session op now) := by
  refine hh.turn fun h hh => ?_
  have hrun := hh.run (Action.execute_keeps session hop hnow)
  cases op with
  | subscribe lastEvent => exact hh.subscribe session lastEvent now
  | unsubscribe => exact hh.unsubscribe session now
  | _ => exact hrun

/-- A connection that closes ends its session, if it still has one. -/
theorem Proper.connectionClosed (hh : h.Proper) (session : SessionId)
    (hnow : now.date.InCalendar) :
    Leaves (fun _ => True) (h.connectionClosed session now) := by
  refine hh.turn fun h hh => ?_
  have hrun := hh.run (Action.disconnect_keeps session hnow)
  exact ⟨.ok trivial, hrun.left.state, hrun.left.mailboxes.detach session⟩

/-- What a sweep emits is delivered at once. -/
theorem Proper.sweep (hh : h.Proper) (hnow : now.date.InCalendar) :
    (h.sweep now).Proper := by
  unfold Hub.sweep
  split
  · exact Proper.deliver ⟨hh.state.sweep hnow, hh.mailboxes⟩
  · exact hh

/-- Each farewell is a push of its own. -/
theorem Proper.shutdown (hh : h.Proper) : h.shutdown.2.Proper := by
  unfold Hub.shutdown
  split
  · exact ⟨hh.state, List.foldlRecOn _ _ hh.mailboxes fun _ hm notice _ =>
      sayGoodbye_proper hm notice⟩
  · exact hh

/-- A peer is handed what was waiting for it. -/
theorem Proper.take (hh : h.Proper) (session : SessionId) :
    (∀ p ∈ (h.take session).1.pushes, p.Proper)
      ∧ (h.take session).2.Proper :=
  have ⟨hpushes, hmailboxes⟩ := hh.mailboxes.take session
  ⟨hpushes, hh.state, hmailboxes⟩

/-- Only the mailbox is given up. -/
theorem Proper.abandon (hh : h.Proper) (session : SessionId) :
    (h.abandon session).Proper :=
  ⟨hh.state, hh.mailboxes.abandon session⟩

end Hub

end Coordinator

namespace Server

-- ============================================================ connections

/-- What comes out of a mailbox is proper. A line may be anything. -/
def Incoming.Proper : Incoming → Prop
  | .push p => p.Proper
  | .line _ | .mailboxClosed | .ended => True

namespace Connection

/-- All that is sent is proper, and so is the hub then. -/
structure Sends (out : List ServerFrame × Connection × Hub) : Prop where
  frames : ∀ f ∈ out.1, f.Proper
  hub : out.2.2.Proper

variable (cause : String → String) {h : Hub} {now : Moment}

/-- To say nothing is proper in a proper hub. -/
theorem Sends.nothing (hh : h.Proper) (c : Connection) :
    Sends ([], c, h) :=
  ⟨fun _ hf => absurd hf List.not_mem_nil, hh⟩

/-- The first line has to be a registration, and whatever it is it gets
one answer. -/
theorem sends_greet (hh : h.Proper) (hnow : now.date.InCalendar)
    (line : String) :
    (greet cause h now line).1.Proper
      ∧ (greet cause h now line).2.2.Proper := by
  unfold greet
  split
  · exact ⟨trivial, hh⟩
  · next id name role _ =>
    have hout := hh.register name role h.mailboxCapacity hnow
    split
    · next heq =>
      rw [heq] at hout
      exact ⟨trivial, hout.left⟩
    · next heq =>
      rw [heq] at hout
      exact ⟨trivial, hout.left⟩
  · exact ⟨trivial, hh⟩

/-- Whatever the line is, if it is a request then a proper one. -/
theorem sends_serve (hh : h.Proper) (hnow : now.date.InCalendar)
    (session : SessionId) (line : String) :
    (serve cause h session now line).1.Proper
      ∧ (serve cause h session now line).2.2.Proper := by
  unfold serve
  split
  · exact ⟨trivial, hh⟩
  · next id op hparse =>
    have hout := hh.call session (RequestFrame.proper_of_parse hparse) hnow
    exact ⟨ServerFrame.ofResult_proper id hout.answer, hout.left⟩

/-- A line is answered by one frame, and a push is handed on as one. -/
theorem sends_react (hh : h.Proper) (hnow : now.date.InCalendar)
    (c : Connection) {i : Incoming} (hi : i.Proper) :
    Sends (c.react cause h now i) := by
  unfold react
  split
  · exact .nothing hh _
  · next line =>
    have hgreet := sends_greet cause hh hnow line
    exact ⟨List.forall_mem_singleton.2 hgreet.1, hgreet.2⟩
  · next session line =>
    have hserve := sends_serve cause hh hnow session line
    exact ⟨List.forall_mem_singleton.2 hserve.1, hserve.2⟩
  · exact ⟨List.forall_mem_singleton.2 trivial, hh⟩
  · exact .nothing hh _
  · exact .nothing hh _
  · exact ⟨List.forall_mem_singleton.2 (ServerFrame.ofPush_proper hi), hh⟩
  · exact .nothing hh _
  · exact .nothing hh _

/-- A connection that ends takes its session with it. -/
theorem sends_step (hh : h.Proper) (hnow : now.date.InCalendar)
    (c : Connection) {i : Incoming} (hi : i.Proper) :
    Sends (c.step cause h now i) := by
  have hreact := sends_react cause hh hnow c hi
  unfold step
  split
  · next session frames h' heq =>
    rw [heq] at hreact
    have hclosed := hreact.hub.connectionClosed session hnow
    exact ⟨hreact.frames, hclosed.left.abandon session⟩
  · exact hreact

/-- By induction over what comes in, with the hub that each step leaves. -/
theorem sends_run (hh : h.Proper) (hnow : now.date.InCalendar)
    (c : Connection) {incoming : List Incoming}
    (hincoming : ∀ i ∈ incoming, i.Proper) :
    Sends (c.run cause h now incoming) := by
  induction incoming generalizing h c with
  | nil => exact .nothing hh c
  | cons i incoming ih =>
    rw [List.forall_mem_cons] at hincoming
    have hstep := sends_step cause hh hnow c hincoming.1
    have hrest := ih hstep.hub (c.step cause h now i).2.1 hincoming.2
    exact ⟨List.forall_mem_append.2 ⟨hstep.frames, hrest.frames⟩, hrest.hub⟩

/-- Every port is flushed once. -/
theorem sends_flush (hh : h.Proper) (hnow : now.date.InCalendar)
    (c : Connection) : Sends (c.flush cause h now) := by
  cases c with
  | serving session =>
    have htake := hh.take session
    have hclosing : ∀ closed : Bool,
        ∀ i ∈ if closed then [Incoming.mailboxClosed] else [], i.Proper := by
      intro closed i hi
      cases closed with
      | true =>
        cases List.mem_singleton.1 hi
        exact trivial
      | false => cases hi
    exact sends_run cause htake.2 hnow (.serving session)
      (List.forall_mem_append.2 ⟨List.forall_mem_map.2 htake.1, hclosing _⟩)
  | greeting => exact .nothing hh _
  | closed => exact .nothing hh _

end Connection

-- =========================================================== switchboards

namespace Switchboard

/-- All that is sent to anybody is proper, and so is the hub then. -/
structure Sends (out : List Dispatch × Switchboard) : Prop where
  frames : ∀ d ∈ out.1, ∀ f ∈ d.frames, f.Proper
  hub : out.2.hub.Proper

variable {b : Switchboard} {now : Moment}

/-- Nobody is sent anything. -/
theorem Sends.nothing (hb : b.hub.Proper) : Sends ([], b) :=
  ⟨fun _ hd => absurd hd List.not_mem_nil, hb⟩

/-- What a connection has sent is handed on as it is. -/
theorem sends_settle (hb : b.hub.Proper) (peer : Nat) (port : Port)
    {frames : List ServerFrame} (hframes : ∀ f ∈ frames, f.Proper) :
    Sends (b.settle peer port frames) := by
  unfold settle
  split
  · exact ⟨List.forall_mem_singleton.2 hframes, hb⟩
  · split
    · exact .nothing hb
    · exact ⟨List.forall_mem_singleton.2 hframes, hb⟩

/-- A port is fed what its connection then runs on. -/
theorem sends_feed (hb : b.hub.Proper) (hnow : now.date.InCalendar)
    (peer : Nat) (port : Port) {incoming : List Incoming}
    (hincoming : ∀ i ∈ incoming, i.Proper) :
    Sends (b.feed peer port now incoming) := by
  have hrun :=
    Connection.sends_run b.cause hb hnow port.connection hincoming
  exact sends_settle (b := { b with hub := _ }) hrun.hub peer _ hrun.frames

/-- Octets become lines first, and a line may be anything. -/
theorem sends_receive (hb : b.hub.Proper) (hnow : now.date.InCalendar)
    (peer : Nat) (octets : List UInt8) :
    Sends (b.receive peer now octets) := by
  unfold receive
  split
  · exact sends_feed hb hnow peer _
      (List.forall_mem_map.2 fun _ _ => trivial)
  · exact .nothing hb

/-- So does what the reader held back when the stream ends. -/
theorem sends_ended (hb : b.hub.Proper) (hnow : now.date.InCalendar)
    (peer : Nat) : Sends (b.ended peer now) := by
  unfold ended
  split
  · exact sends_feed hb hnow peer _ (List.forall_mem_append.2
      ⟨List.forall_mem_map.2 fun _ _ => trivial,
        List.forall_mem_singleton.2 trivial⟩)
  · exact .nothing hb

/-- One port after another, each with the hub that the last one left. -/
theorem sends_flushPort (hnow : now.date.InCalendar)
    {out : List Dispatch × Switchboard} (h : Sends out) (peer : Nat) :
    Sends (flushPort now out peer) := by
  unfold flushPort
  dsimp only
  split
  · next port _ =>
    split
    · exact h
    · have hflush := Connection.sends_flush out.2.cause h.hub hnow
        port.connection
      have hsettle := sends_settle (b := { out.2 with hub := _ })
        hflush.hub peer { port with
          connection :=
            (port.connection.flush out.2.cause out.2.hub now).2.1 }
        hflush.frames
      exact ⟨List.forall_mem_append.2 ⟨h.frames, hsettle.frames⟩,
        hsettle.hub⟩
  · exact h

theorem sends_flush (hb : b.hub.Proper) (hnow : now.date.InCalendar) :
    Sends (b.flush now) :=
  List.foldlRecOn b.ports.keys _ (.nothing hb) fun _ hout peer _ =>
    sends_flushPort hnow hout peer

/-- The day that the clock shows is one of the calendar. -/
def Input.InCalendar : Input → Prop
  | .receive _ now _ | .ended _ now | .flush now | .sweep now =>
    now.date.InCalendar
  | .accept _ | .sent _ | .shutdown => True

/-- Only octets, their end and a flush have anything sent. -/
theorem sends_input (hb : b.hub.Proper) {input : Input}
    (hinput : input.InCalendar) : Sends (b.step input) := by
  cases input with
  | accept peer => exact .nothing hb
  | receive peer now octets => exact sends_receive hb hinput peer octets
  | ended peer now => exact sends_ended hb hinput peer
  | sent peer => exact .nothing hb
  | flush now => exact sends_flush hb hinput
  | sweep now => exact .nothing (hb.sweep hinput)
  | shutdown => exact .nothing hb.shutdown

/-- By induction over the inputs, with the switchboard that each leaves. -/
theorem sends_run (hb : b.hub.Proper) {inputs : List Input}
    (hinputs : ∀ i ∈ inputs, i.InCalendar) : Sends (b.run inputs) := by
  induction inputs generalizing b with
  | nil => exact .nothing hb
  | cons input inputs ih =>
    rw [List.forall_mem_cons] at hinputs
    have hstep := sends_input hb hinputs.1
    have hrest := ih hstep.hub hinputs.2
    exact ⟨List.forall_mem_append.2 ⟨hstep.frames, hrest.frames⟩, hrest.hub⟩

/-- Whatever comes in, every frame that a peer is sent is proper. -/
theorem framesTo_proper (settings : Settings) (cause : String → String)
    {inputs : List Input} (hinputs : ∀ i ∈ inputs, i.InCalendar)
    (peer : Nat) :
    ∀ f ∈ framesTo peer ((Switchboard.new settings cause).run inputs).1,
      f.Proper := by
  have hrun := sends_run (b := .new settings cause) (.new settings) hinputs
  intro f hf
  obtain ⟨d, hd, hfd⟩ := List.mem_flatMap.1 hf
  exact hrun.frames d (List.mem_of_mem_filter hd) f hfd

end Switchboard

end Server

end LabLease
