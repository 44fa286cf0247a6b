/-
No free resource idles while a reservation waits for it: whoever waits
and could be served at once is one whose allocation has lapsed in the
last sweep in which any has.

# Calm and rescans

A call either frees nothing and lets nobody wait anew, and then there is
nobody to be served who was not before, or it ends with a rescan of the
whole queue, and then there is nobody to be served at all. `Eases` is
what the two have in common. That the first kind of calls is calm needs
the invariant: a resource is free as soon as its flag is down, whatever
becomes of sessions and places (`Sound.isFree_iff`).

Only the check of the deadlines in a sweep is different. Whoever it puts
back is skipped in the rescan that follows.
-/
import LabLease.Proofs.Coordinator.Leasing
import LabLease.Proofs.Registry.Service
import Mathlib.Data.List.Induction

namespace LabLease.Coordinator

namespace State

/-- Whether a resource is there for whoever waits: it is free and set
aside for nobody. -/
def isIdle (s : State) (r : Resource) : Bool :=
  s.isFree r && !s.queue.isAllocated r.id

/-- Some patterns can be bound out of the idle resources. -/
def Bindable (s : State) (patterns : List ResourcePattern) : Prop :=
  ∃ ids, s.inventory.bind s.isIdle patterns = .ok ids

/-- Nobody waits who could be served, some reservations excepted. -/
def Settled (s : State) (who : String → Prop) : Prop :=
  ∀ e ∈ s.queue.all, e.reservation.state = .waiting →
    s.Bindable e.reservation.filters → who e.id

/-- After a change there is nobody to be served who was not before. -/
def Eases (s s' : State) : Prop :=
  ∀ who, s.Settled who → s'.Settled who

/-- Whose allocations lapse in a sweep. -/
def reverted (s : State) (now : Moment) : List String :=
  ((s.evictSilent now).queue.expire now).1.reverted

end State

variable {l l' : Option SessionId} {s s' t : State} {who : String → Prop}

-- ============================================================ what is idle

theorem State.isIdle_eq (s : State) :
    s.isIdle = fun r => s.isFree r && !s.queue.taken.contains r.id := by
  funext r
  unfold isIdle
  congr 2
  rw [Bool.eq_iff_iff, List.contains_iff_mem]
  unfold Queue.isAllocated Queue.taken
  rw [List.any_eq_true, List.mem_flatMap]
  simp only [QueueEntry.holdsAny_iff, List.mem_filter,
    QueueEntry.isAllocated_iff, List.mem_singleton, exists_eq_right,
    and_assoc]

namespace Sound

/-- What is published has a live exporter and is flagged if it is
bound. -/
theorem isFree_iff (h : Sound l s) {id : ResourceId} {r : Resource}
    (hr : s.inventory.get? id = some r) :
    s.isFree r = true ↔ r.acquired = false := by
  have hid := h.inventory.id_eq hr
  unfold State.isFree
  rw [Bool.and_eq_true, Bool.and_eq_true, Bool.not_eq_true',
    Bool.not_eq_true', hid]
  refine ⟨fun hfree => hfree.1.1, fun hdown => ⟨⟨hdown, ?_⟩, ?_⟩⟩
  · rw [← Bool.not_eq_true, ← h.leased.flagged id r hr, hdown]
    exact Bool.false_ne_true
  · obtain ⟨⟨r', owner⟩, hp, rfl⟩ := Inventory.get?_eq_some.1 hr
    exact h.attended.roster.isLiveExporter_iff.2
      ⟨owner, h.attended.owned id _ hp⟩

theorem bindable_iff (h : Sound l s) {patterns : List ResourcePattern} :
    s.Bindable patterns ↔
      s.inventory.Fits (!·.acquired) s.queue.taken patterns := by
  unfold State.Bindable
  rw [State.isIdle_eq, ← Inventory.fits_iff h.inventory]
  constructor
  · intro hfit
    refine hfit.mono fun id r hnot hr hfree => ⟨hnot, r, hr, ?_⟩
    rw [(h.isFree_iff hr).1 hfree]
    rfl
  · intro hfit
    refine hfit.mono fun id r hnot hr hdown => ⟨hnot, r, hr, ?_⟩
    exact (h.isFree_iff hr).2 (Bool.not_eq_true' _ ▸ hdown)

end Sound

-- ================================================================== easing

namespace State

theorem Settled.mono {who' : String → Prop} (h : s.Settled who)
    (hsub : ∀ id, who id → who' id) : s.Settled who' :=
  fun e he hw hb => hsub e.id (h e he hw hb)

namespace Eases

theorem refl (s : State) : s.Eases s := fun _ h => h

theorem trans (h : s.Eases t) (h' : t.Eases s') : s.Eases s' :=
  fun who hs => h' who (h who hs)

/-- Nothing is freed and nobody waits anew. -/
theorem of_calm (h : Sound l s) (h' : Sound l' s')
    (hinv : ∀ id r', s'.inventory.get? id = some r' →
      r'.acquired = false →
      ∃ r, s.inventory.get? id = some r ∧ r.acquired = false)
    (htaken : s.queue.taken ⊆ s'.queue.taken)
    (hwait : ∀ i e', s'.queue.entries.get? i = some e' →
      e'.reservation.state = .waiting →
      ∃ e, s.queue.entries.get? i = some e
        ∧ e.reservation.state = .waiting ∧ e'.Continues e) :
    s.Eases s' := by
  intro who hs e' he' hw' hb'
  obtain ⟨i, hi'⟩ := Queue.mem_all.1 he'
  obtain ⟨e, hi, hw, hc⟩ := hwait i e' hi' hw'
  rw [hc.id]
  refine hs e (Queue.mem_all.2 ⟨i, hi⟩) hw (h.bindable_iff.2 ?_)
  rw [← hc.filters]
  refine (h'.bindable_iff.1 hb').mono fun id r' hnot hr' hdown' => ?_
  rw [Bool.not_eq_true'] at hdown'
  obtain ⟨r, hr, hdown⟩ := hinv id r' hr' hdown'
  exact ⟨fun hin => hnot (htaken hin), r, hr, by rw [hdown]; rfl⟩

/-- Only sessions and places change. -/
theorem of_same (h : Sound l s) (h' : Sound l' s')
    (hi : s'.inventory = s.inventory) (hq : s'.queue = s.queue) :
    s.Eases s' := by
  refine of_calm h h' ?_ ?_ ?_
  · intro id r hr hdown
    exact ⟨r, hi ▸ hr, hdown⟩
  · rw [hq]
    exact List.Subset.refl _
  · intro i e he hw
    exact ⟨e, hq ▸ he, hw, .refl e⟩

theorem of_emitAll (h : Sound l s) {cs : List Change}
    (h' : Sound l' (t.emitAll cs)) (hi : t.inventory = s.inventory)
    (hq : t.queue = s.queue) : s.Eases (t.emitAll cs) :=
  of_same h h' ((emitAll_inventory _ _).trans hi)
    ((emitAll_queue _ _).trans hq)

end Eases

end State

/-- A rescan leaves nobody to be served but those that it skips. -/
theorem Sound.rescan_settled (h : Sound l s) (now : Moment)
    (skip : List String) : (s.rescan now skip).Settled (· ∈ skip) := by
  intro e he hw hb
  obtain ⟨i, hi⟩ := Queue.mem_all.1 he
  have hqueue := State.rescan_queue s now skip
  have hfit := (h.rescan now skip).bindable_iff.1 hb
  rw [State.rescan_inventory, hqueue] at hfit
  rw [hqueue] at hi
  refine Queue.rescan_unserved h.inventory h.queue hi hw
    (hfit.mono fun id r hnot hr hdown => ⟨hnot, r, hr, ?_⟩)
  rw [h.isFree_iff hr]
  simpa using hdown

/-- A rescan that skips nobody leaves nobody. -/
theorem Sound.rescan_eases (h : Sound l t) (now : Moment) :
    s.Eases (t.rescan now []) :=
  fun _ _ => (h.rescan_settled now []).mono fun _ hid => nomatch hid

namespace State.Eases

/-- A loop whose every turn eases eases. -/
theorem foldl {α : Type} {f : State → α → State} {as : List α}
    (hf : ∀ a s, Sound l s → Sound l (f s a) ∧ s.Eases (f s a))
    (h : Sound l s) : s.Eases (as.foldl f s) := by
  induction as generalizing s with
  | nil => exact .refl s
  | cons a as ih =>
    obtain ⟨hsound, hease⟩ := hf a s h
    exact hease.trans (ih hsound)

-- =============================================================== cascades

theorem applyChanges (h : Sound none s) {exporter : String}
    {owner : SessionId} {inventory : Inventory}
    {changes : List ResourceChange} (now : Moment)
    (hl : s.roster.Live owner exporter .exporter)
    (hr : s.inventory.Restock exporter owner inventory changes) :
    s.Eases ({ s with inventory }.applyChanges owner changes now) := by
  have hsound := h.restock hl hr
  rw [State.applyChanges_eq { s with inventory } owner now hr.current
    hr.nodup]
  split
  · next hnil =>
    rw [List.isEmpty_iff.1 hnil, State.restocked_nil] at hsound ⊢
    refine of_calm h hsound ?_ (List.Subset.refl _) ?_
    · intro id r hget hdown
      rw [List.isEmpty_iff.1 hnil] at hr
      exact ⟨r, (hr.get?_same List.not_mem_nil).symm.trans hget, hdown⟩
    · exact fun i e he hw => ⟨e, he, hw, .refl e⟩
  · exact hsound.rescan_eases now

theorem finishRelease (h : Sound none s) {place : String}
    {session : SessionId} {force : Bool} {freed : List ResourceId}
    {places : Places} (holder : Option Holder) (now : Moment)
    (hr : s.places.release place session force now.date
      = .ok (freed, places)) :
    s.Eases ({ s with places }.finishRelease place holder freed now) := by
  rw [State.finishRelease_eq]
  exact (h.vacate holder hr).rescan_eases now

theorem releaseFrom (h : Sound none s) (place : String)
    (session : SessionId) (holder : Option Holder) (now : Moment) :
    s.Eases (s.releaseFrom place session holder now) := by
  unfold State.releaseFrom
  cases hr : s.places.release place session true now.date with
  | error e => exact .refl s
  | ok out => exact finishRelease h holder now hr

theorem endSession (h : Sound none s) (session : SessionId)
    (now : Moment) : t.Eases (s.endSession session now) := by
  obtain ⟨u, v, hleave, hm, heq⟩ := Moves.endSession h session now
  rw [heq]
  exact ((h.move hleave).moves hm).rescan_eases now

/-- An acquisition frees nothing, unless it finishes allocations that it
does not use up. -/
theorem leased (h : Sound none s) {place name : String}
    {session : SessionId} {bound : List ResourceId} {places : Places}
    {now : Moment} (hl : s.roster.Live session name .client)
    (ha : s.places.acquire place ⟨name, session⟩ s.inventory
      (Action.isAvailable s session) now.date = .ok (bound, places)) :
    s.Eases ({ s with places }.leased place session bound now) := by
  have hsound : Sound none
      ({ s with places }.occupied place session bound now) :=
    h.acquire hl ha
  unfold State.leased
  dsimp only
  split
  · next hnil =>
    have hqueue : ({ s with places }.occupied place session bound
        now).queue = s.queue :=
      (State.emitAll_queue _ _).trans
        (Queue.convert_of_nil _ _ _ _ (List.isEmpty_iff.1 hnil))
    have hinv : ({ s with places }.occupied place session bound
        now).inventory = s.inventory.flag bound true :=
      State.emitAll_inventory _ _
    refine of_calm h hsound ?_ ?_ ?_
    · intro id r' hr' hdown
      rw [hinv, Inventory.get?_flag] at hr'
      obtain ⟨r, hr, heq⟩ := Option.map_eq_some_iff.1 hr'
      refine ⟨r, hr, ?_⟩
      split at heq
      · rw [← heq, Resource.flagged_acquired] at hdown
        cases hdown
      · rw [heq]
        exact hdown
    · rw [hqueue]
      exact List.Subset.refl _
    · intro i e he hw
      exact ⟨e, hqueue ▸ he, hw, .refl e⟩
  · exact hsound.rescan_eases now

theorem poll (h : Sound none s) {id : String} {session : SessionId}
    {now : Moment} {r : Reservation} {queue : Queue}
    (hp : s.queue.poll id session now = .ok (r, queue)) :
    s.Eases { s with queue } := by
  have hsound : Sound none { s with queue } := h.move (.poll hp)
  have hsame : ∀ i, (queue.entries.get? i).map (·.reservation)
      = (s.queue.entries.get? i).map (·.reservation) := by
    intro i
    obtain ⟨e, he, -, -, ⟨-, rfl⟩ | ⟨-, rfl⟩⟩ := Queue.poll_ok hp
    · rfl
    · rw [Table.get?_insert]
      split
      · next hi =>
        rw [← hi, he]
        rfl
      · rfl
  refine of_calm h hsound (fun _ r hr hdown => ⟨r, hr, hdown⟩) ?_ ?_
  · intro k hk
    obtain ⟨i, e, he, hin⟩ := h.allotted.mem_taken_iff.1 hk
    have hmap := hsame i
    rw [he] at hmap
    obtain ⟨e', he', heq⟩ := Option.map_eq_some_iff.1 hmap
    exact hsound.allotted.mem_taken_iff.2 ⟨i, e', he', heq ▸ hin⟩
  · intro i e' he' hw
    have hmap := hsame i
    rw [show queue.entries.get? i = some e' from he'] at hmap
    obtain ⟨e, he, heq⟩ := Option.map_eq_some_iff.1 hmap.symm
    exact ⟨e, he, heq ▸ hw, congrArg (·.id) heq.symm,
      congrArg (·.owner) heq.symm, congrArg (·.filters) heq.symm,
      congrArg (·.priority) heq.symm⟩

-- ============================================================== the sweep

theorem evictSilent (h : Sound none s) (now : Moment) :
    s.Eases (s.evictSilent now) := by
  refine foldl (fun session s hs => ?_) h
  have hm : Moves (fun _ => True) none s none (s.evict session now) :=
    .evict hs now trivial fun _ _ => trivial
  refine ⟨hs.moves hm, ?_⟩
  unfold State.evict
  split
  · exact endSession (hs.move (.aside _ _ _)) session now
  · exact .refl s

/-- A check of the deadlines that puts nobody back. -/
theorem expireReservations (h : Sound none s) {now : Moment}
    (hrev : (s.queue.expire now).1.reverted = []) :
    s.Eases (s.expireReservations now) := by
  have hsound := h.move (.expire now)
  unfold State.expireReservations
  dsimp only
  split
  · next hnil =>
    rw [List.isEmpty_iff.1 hnil] at hsound
    obtain ⟨-, hkept⟩ := Queue.expire_of_nil (List.isEmpty_iff.1 hnil)
    -- only what is finished goes, and that holds nothing
    refine of_calm h hsound (fun _ r hr hdown => ⟨r, hr, hdown⟩) ?_ ?_
    · intro id hid
      obtain ⟨i, e, he, hin⟩ := h.allotted.mem_taken_iff.1 hid
      refine hsound.allotted.mem_taken_iff.2 ⟨i, e, ?_, hin⟩
      show (s.queue.expire now).2.entries.get? i = some e
      rw [hkept]
      exact Queue.get?_kept_of_allocated (h.allotted.sound i e he) he
        (h.allotted.allocated_of_mem he hin)
    · intro i e he hw
      have hget : (s.queue.expire now).2.entries.get? i = some e := he
      rw [hkept] at hget
      unfold Queue.kept at hget
      rw [Table.get?_filter, Option.filter_eq_some_iff] at hget
      exact ⟨e, hget.1, hw, .refl e⟩
  · rw [hrev, State.emitReservations_eq]
    exact hsound.rescan_eases now

theorem checkOrphan (h : Sound none s) (limit : Nat) (now : Moment)
    (name : String) : s.Eases (s.checkOrphan limit now name) := by
  have hnoted : Sound none { s with
      incompleteSince := s.incompleteSince.insert name
        ((s.incompleteSince.get? name).getD now.ticks) } :=
    h.move (.aside _ _ _)
  have hnote := of_same h hnoted rfl rfl
  unfold State.checkOrphan
  dsimp only
  split
  · exact hnote
  · split
    · split
      · exact hnote.trans (releaseFrom hnoted _ _ _ now)
      · exact hnote
    · exact hnote

theorem releaseOrphans (h : Sound none s) (now : Moment) :
    s.Eases (s.releaseOrphans now) := by
  cases hlimit : s.settings.orphanLimit with
  | none =>
    rw [State.releaseOrphans_none hlimit]
    exact .refl s
  | some limit =>
    rw [State.releaseOrphans_eq hlimit]
    have hkept : Sound none { s with
        incompleteSince := s.incompleteSince.filter fun name _ =>
          s.incomplete.contains name } := h.move (.aside _ _ _)
    refine (of_same h hkept rfl rfl).trans (foldl ?_ hkept)
    intro name s hs
    have hm : Moves (fun _ => True) none s none
        (s.checkOrphan limit now name) :=
      .checkOrphan none limit now s trivial trivial fun _ _ => trivial
    exact ⟨hs.moves hm, checkOrphan hs limit now name⟩

end State.Eases

/-- A check of the deadlines that puts somebody back. -/
theorem Sound.expireReservations_settled (h : Sound none s) {now : Moment}
    (hrev : (s.queue.expire now).1.reverted ≠ []) :
    (s.expireReservations now).Settled
      (· ∈ (s.queue.expire now).1.reverted) := by
  unfold State.expireReservations
  dsimp only
  split
  · next hnil =>
    exact absurd (Queue.expire_of_nil (List.isEmpty_iff.1 hnil)).1 hrev
  · rw [State.emitReservations_eq]
    exact (h.move (.expire now)).rescan_settled now _

-- ============================================================= operations

/-- Every operation that is granted eases. -/
theorem Granted.eases {session : SessionId} {now : Moment}
    {op : Operation} {r : Reply} (h : Sound none s)
    (hg : Granted session now s op r s') : s.Eases s' := by
  cases hg with
  | answered => exact .refl s
  | disconnected => exact .endSession h session now
  | published hl hp =>
    exact .applyChanges h now hl
      (Inventory.publish_restock h.inventory hp)
  | @withdrawn _ exporter _ _ hl hp =>
    exact .applyChanges h now hl (Inventory.withdraw_restock exporter hp)
  | created hc =>
    exact .of_emitAll h (h.move (.create hc)) rfl rfl
  | deleted hd =>
    exact .of_emitAll h (h.move (.delete hd)) rfl rfl
  | edited _ hp hr =>
    exact .of_emitAll h (h.move (.revise hp hr)) rfl rfl
  | acquired hl ha hp => exact .leased h hl ha
  | released hp hh hmay hr hq => exact .finishRelease h _ now hr
  | reserved hl hc hr =>
    exact (h.move (.reserve _ hl hc)).rescan_eases now
  | cancelled hc hr => exact (h.move (.cancel hc)).rescan_eases now
  | finished => exact .refl s
  | polled hp => exact .poll h hp

-- ================================================================== calls

namespace Sound

theorem register_eases (h : Sound none s) (name : String) (role : Role)
    (now : Moment) : s.Eases (s.step (.register name role now)) := by
  have hclear : s.Eases (s.cleared name now) := by
    unfold State.cleared
    split
    · exact .refl s
    · exact .endSession (h.move (.aside _ _ _)) _ now
  have hsound := h.moves (h.cleared_moves name now)
  unfold State.step
  dsimp only
  rw [Action.register_apply]
  cases hr : (s.cleared name now).roster.register name role now with
  | error e => exact hclear
  | ok out => exact hclear.trans (.of_same hsound (hsound.join hr) rfl rfl)

theorem execute_eases (h : Sound none s) (session : SessionId)
    (op : Operation) (now : Moment) :
    s.Eases (s.step (.execute session op now)) := by
  unfold State.step
  dsimp only
  rcases Action.execute_outcome s session op now with
    ⟨e, -, he⟩ | ⟨roster, hr, ho⟩
  · rw [he]
    exact .refl s
  · have hheard : s.Eases { s with roster } :=
      .of_same h (h.heard hr) rfl rfl
    generalize (Action.execute session op now).apply s = out at ho
    cases ho with
    | refused => exact hheard
    | done hg => exact hheard.trans (hg.eases (h.heard hr))

theorem disconnect_eases (h : Sound none s) (session : SessionId)
    (now : Moment) : s.Eases (s.step (.disconnect session now)) := by
  unfold State.step
  dsimp only
  rw [Action.disconnect_apply]
  split
  · exact .endSession h session now
  · exact .refl s

theorem sweep_eases (h : Sound none s) {now : Moment}
    (hrev : s.reverted now = []) : s.Eases (s.sweep now) := by
  have hevict := h.moves (Moves.evictSilent h now)
  have hseen : s.Eases (s.inspected now) :=
    (State.Eases.evictSilent h now).trans (.expireReservations hevict hrev)
  rw [State.sweep_eq]
  exact hseen.trans (.releaseOrphans (h.moves (Moves.inspected h now)) now)

/-- A sweep in which allocations lapse leaves nobody to be served but
whom it has put back. -/
theorem sweep_settled (h : Sound none s) {now : Moment}
    (hrev : s.reverted now ≠ []) :
    (s.sweep now).Settled (· ∈ s.reverted now) := by
  have hevict := h.moves (Moves.evictSilent h now)
  have hseen := h.moves (Moves.inspected h now)
  rw [State.sweep_eq]
  exact State.Eases.releaseOrphans hseen now _
    (hevict.expireReservations_settled hrev)

/-- Every other call eases. -/
theorem step_eases (h : Sound none s) {input : Input}
    (hrev : ∀ now, input = .sweep now → s.reverted now = []) :
    s.Eases (s.step input) := by
  cases input with
  | register name role now => exact h.register_eases name role now
  | execute session op now => exact h.execute_eases session op now
  | disconnect session now => exact h.disconnect_eases session now
  | sweep now => exact h.sweep_eases (hrev now rfl)
  | takeEvents => exact .of_same h (h.step .takeEvents) rfl rfl
  | takeNotices => exact .of_same h (h.step .takeNotices) rfl rfl

end Sound

-- =================================================================== runs

/-- In the last of some sweeps in which any allocation has lapsed, that of
a certain reservation has. -/
def State.LastReverted (s : State) (inputs : List Input) (id : String) :
    Prop :=
  ∃ before now after, inputs = before ++ .sweep now :: after
    ∧ id ∈ (s.run before).reverted now
    ∧ ∀ pre now' post, after = pre ++ .sweep now' :: post →
      (s.run (before ++ .sweep now :: pre)).reverted now' = []

/-- One more call in which no allocation lapses. -/
theorem State.LastReverted.snoc {inputs : List Input} {id : String}
    (h : s.LastReverted inputs id) {input : Input}
    (hrev : ∀ now, input = .sweep now → (s.run inputs).reverted now = []) :
    s.LastReverted (inputs ++ [input]) id := by
  obtain ⟨before, now, after, rfl, hid, hlast⟩ := h
  refine ⟨before, now, after ++ [input], ?_, hid, ?_⟩
  · rw [List.append_assoc, List.cons_append]
  · intro pre now' post heq
    obtain ⟨-, rfl, hinput⟩ | ⟨rest, -, rfl⟩ := snoc_eq_split heq
    · exact hrev now' hinput
    · exact hlast pre now' rest rfl

theorem Sound.run_settled (h : Sound none s)
    (hstart : s.Settled fun _ => False) (inputs : List Input) :
    (s.run inputs).Settled (s.LastReverted inputs) := by
  induction inputs using List.reverseRecOn with
  | nil => exact hstart.mono fun _ hid => hid.elim
  | append_singleton inputs input ih =>
    have hsound := h.run inputs
    rw [State.run_append]
    by_cases hrev : ∀ now, input = .sweep now →
        (s.run inputs).reverted now = []
    · exact (hsound.step_eases hrev _ ih).mono fun _ hid => hid.snoc hrev
    · push Not at hrev
      obtain ⟨now, rfl, hrev⟩ := hrev
      refine (hsound.sweep_settled hrev).mono fun id hid => ?_
      refine ⟨inputs, now, [], rfl, hid, fun pre now' post heq => ?_⟩
      cases pre <;> cases heq

/-- No free resource idles while a reservation could use it: a
reservation that waits and can be bound out of what is free and set aside
for nobody is one whose allocation has lapsed in the last sweep in which
any has, and as long as none has there is no such reservation. -/
theorem nothing_idles (settings : Settings) (inputs : List Input) :
    let start := State.new settings
    let s := start.run inputs
    (∀ e ∈ s.queue.all, e.reservation.state = .waiting →
        s.Bindable e.reservation.filters → start.LastReverted inputs e.id)
      ∧ ((∀ before now after, inputs = before ++ .sweep now :: after →
          (start.run before).reverted now = []) →
        ∀ e ∈ s.queue.all, e.reservation.state = .waiting →
          ¬ s.Bindable e.reservation.filters) := by
  intro start s
  have hsettled : s.Settled (start.LastReverted inputs) :=
    (Sound.new settings).run_settled nofun inputs
  refine ⟨hsettled, fun hnone e he hw hb => ?_⟩
  obtain ⟨before, now, after, heq, hid, -⟩ := hsettled e he hw hb
  rw [hnone before now after heq] at hid
  cases hid

/-- An allocation is not used for a second and the sweep takes it back,
after a sweep that came too early and left somebody else waiting. -/
theorem nothing_idles_lapse :
    let any : ResourcePattern := ⟨everything, everything, everything, none⟩
    let clock (ms : Nat) : Moment := ⟨ms, ⟨2024, 1, 1, 12, 0, 0, 0⟩⟩
    let start := State.new { reservationGraceSecs := 1 }
    let lapse := booking ++ [.sweep (clock 1000)]
    let wait := booking ++ [.execute 2 (.createReservation [any] 0) (clock 0),
      .sweep (clock 500)]
    (∃ e ∈ (start.run lapse).queue.all, e.reservation.state = .waiting
        ∧ (start.run lapse).Bindable e.reservation.filters
        ∧ start.LastReverted lapse e.id)
      ∧ ∃ e ∈ (start.run wait).queue.all, e.reservation.state = .waiting
        ∧ ¬ (start.run wait).Bindable e.reservation.filters := by
  intro any clock start lapse wait
  have hlapse : (start.run lapse).queue.all ≠ [] := by decide +kernel +revert
  have hwait : (start.run wait).queue.all ≠ [] := by decide +kernel +revert
  have hearly : (start.run (booking
        ++ [.execute 2 (.createReservation [any] 0) (clock 0)])).reverted
      (clock 500) = [] := by
    decide +kernel +revert
  have hback : ((start.run lapse).queue.all.head hlapse).reservation.state
      = .waiting := by
    decide +kernel +revert
  have hbind : (start.run lapse).inventory.bind (start.run lapse).isIdle
      ((start.run lapse).queue.all.head hlapse).reservation.filters
        = .ok [⟨"bench", "rack", "SysfsGPIO", "led"⟩] := by
    decide +kernel +revert
  have hlast : ((start.run wait).queue.all.getLast hwait).reservation.state
      = .waiting := by
    decide +kernel +revert
  refine ⟨⟨_, List.head_mem hlapse, hback, ⟨_, hbind⟩,
      (nothing_idles _ lapse).1 _ (List.head_mem hlapse) hback ⟨_, hbind⟩⟩,
    _, List.getLast_mem hwait, hlast,
    (nothing_idles _ wait).2 ?_ _ (List.getLast_mem hwait) hlast⟩
  intro before now after heq
  have hsplit : wait = (booking
      ++ [.execute 2 (.createReservation [any] 0) (clock 0)])
        ++ [.sweep (clock 500)] := rfl
  rw [hsplit] at heq
  rcases List.eq_nil_or_concat after with rfl | ⟨after, last, rfl⟩
  · obtain ⟨rfl, hsweep⟩ := List.append_inj' heq rfl
    cases hsweep
    exact hearly
  · -- there is no earlier sweep
    rw [List.concat_eq_append, ← List.cons_append, ← List.append_assoc]
      at heq
    have hmem : .sweep now ∈ before ++ .sweep now :: after :=
      List.mem_append_right _ List.mem_cons_self
    rw [← (List.append_inj' heq rfl).1] at hmem
    simp [booking] at hmem

end LabLease.Coordinator
