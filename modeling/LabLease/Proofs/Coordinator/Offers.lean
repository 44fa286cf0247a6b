/-
What a session offers: the resources it publishes, with their parameters.

Others can do a lot to these resources, since leases set their flags and
raise their versions. But as long as the session is live, what it offers
is changed by nothing but its own publications (`Sound.run_offer?`). So
what holds right after a publication holds until the next one, whatever
happens in between (`Stocked.run`).
-/
import LabLease.Proofs.Coordinator.Eviction
import LabLease.Proofs.Coordinator.Grace
import LabLease.Proofs.Coordinator.Publication

namespace LabLease

namespace Inventory

variable {inv inv' : Inventory} {session owner : SessionId}
  {id : ResourceId}

/-- The parameters of a resource that a session publishes. -/
def offer? (inv : Inventory) (session : SessionId) (id : ResourceId) :
    Option ResourceParams :=
  ((inv.entries.get? id).filter (·.owner = session)).map
    (·.resource.params)

theorem offer?_eq_some {params : ResourceParams} :
    inv.offer? session id = some params ↔
      inv.ownerOf? id = some session
        ∧ ∃ r, inv.get? id = some r ∧ r.params = params := by
  unfold offer? ownerOf? get?
  cases inv.entries.get? id with
  | none => simp
  | some e =>
    by_cases h : e.owner = session <;> simp [Option.filter_some, h]

@[simp] theorem offer?_flag (inv : Inventory) (ids : List ResourceId)
    (b : Bool) : (inv.flag ids b).offer? session id
      = inv.offer? session id := by
  unfold offer?
  rw [get?_entries_flag]
  cases inv.entries.get? id with
  | none => rfl
  | some e =>
    rw [Option.map_some]
    by_cases hid : id ∈ ids
    · by_cases ho : e.owner = session <;>
        simp [hid, ho, Option.filter_some]
    · rw [if_neg hid]

namespace Restock

variable {exporter : String} {changes : List ResourceChange}

/-- What others have is not changed. -/
theorem notMem_of_other (h : Restock exporter owner inv inv' changes)
    (hne : session ≠ owner) (hown : inv.ownerOf? id = some session) :
    id ∉ changes.map (·.id) := by
  intro hid
  obtain ⟨c, hc, rfl⟩ := List.mem_map.1 hid
  cases c with
  | upserted r =>
    obtain ⟨e, he, rfl⟩ := ownerOf?_eq_some.1 hown
    exact hne (h.known r hc e he).1
  | removed k =>
    have hwas : inv.ownerOf? k = some owner :=
      ownerOf?_eq_some.2 (h.removed k hc).2
    cases hown.symm.trans hwas
    exact hne rfl

/-- A session restocks its own resources only. -/
theorem offer?_other (h : Restock exporter owner inv inv' changes)
    (hne : session ≠ owner) :
    inv'.offer? session id = inv.offer? session id := by
  refine Option.ext fun params => ?_
  rw [offer?_eq_some, offer?_eq_some, h.ownerOf?_other hne]
  refine and_congr_right fun hown => ?_
  rw [h.get?_same (h.notMem_of_other hne hown)]

end Restock

end Inventory

namespace Coordinator

variable {k : Kind} {kinds : Kind → Prop} {l l' : Option SessionId}
  {s s' : State} {x : SessionId} {name : String} {role : Role}
  {id : ResourceId}

-- ================================================================= moves

/-- Nobody is there after leaving. -/
theorem Move.not_live_of_leave (hm : Move (.leave x) l s l' s') :
    ¬ s'.roster.Live x name role := by
  rintro ⟨o, ho, -⟩
  obtain ⟨o', ho', -⟩ := hm.roster_of_leave.was ho
  rw [Roster.get?_remove, if_pos rfl] at ho'
  cases ho'

/-- Only a session itself changes what it offers, and its end. -/
theorem Move.offer? (hm : Move k l s l' s') (hrestock : k ≠ .restock x)
    (hleave : k ≠ .leave x) :
    s'.inventory.offer? x id = s.inventory.offer? x id := by
  cases hm with
  | @restock _ _ _ owner _ _ _ hr =>
    have hne : x ≠ owner := by
      rintro rfl
      exact hrestock rfl
    unfold State.restocked
    rw [State.emitAll_inventory, Inventory.offer?_flag]
    exact hr.offer?_other hne
  | leave session =>
    have hne : x ≠ session := by
      rintro rfl
      exact hleave rfl
    unfold State.restocked
    rw [State.emitAll_inventory, Inventory.offer?_flag]
    exact (s.inventory.removeOwner_restock "" session).offer?_other hne
  | vacate =>
    unfold State.vacated
    rw [State.emitAll_inventory, Inventory.offer?_flag]
  | acquire =>
    unfold State.occupied
    rw [State.emitAll_inventory, Inventory.offer?_flag]
  | aside | heard | join | poll => rfl
  | rescan => rw [State.rescan_eq, State.emitAll_inventory]
  | create | revise | delete | reserve | cancel | expire | forget =>
    rw [State.emitAll_inventory]

theorem Moves.offer? (hm : Moves kinds l s l' s')
    (hrestock : ¬ kinds (.restock x)) (hx : x ≤ s.roster.lastId)
    (hl : s'.roster.Live x name role) :
    s'.inventory.offer? x id = s.inventory.offer? x id := by
  induction hm with
  | refl => rfl
  | tail hrun hkind step ih =>
    have hmid := (Moves.single hkind step).live_was
      (fun _ => Nat.le_trans hx hrun.lastId) hl
    rw [step.offer? (fun heq => hrestock (heq ▸ hkind)) ?_, ih hx hmid]
    rintro rfl
    exact step.not_live_of_leave hl

-- ================================================================= calls

/-- A call by which a session changes what it offers. -/
inductive Input.Publishes (session : SessionId) : Input → Prop
  | setResources (specs : List ResourceSpec) (now : Moment) :
    Publishes session (.execute session (.setResources specs) now)
  | withdraw (ids : List ResourceId) (now : Moment) :
    Publishes session (.execute session (.withdraw ids) now)

theorem Takes.publishes {input : Input}
    (h : Takes s input (.restock x)) : input.Publishes x := by
  cases h with
  | clear h => cases h with
    | replace _ h => cases h
  | serve _ h => cases h with
    | disconnect h => cases h
    | setResources specs => exact .setResources specs _
    | withdraw ids => exact .withdraw ids _
  | disconnect h => cases h
  | sweep h => cases h with
    | evict _ h => cases h

namespace Sound

variable {input : Input} {inputs : List Input}

theorem step_lastId (h : Sound none s) (input : Input) :
    s.roster.lastId ≤ (s.step input).roster.lastId := by
  rcases h.step_moves input with hm | hdrained
  · exact hm.lastId
  · exact Nat.le_of_eq (by rw [hdrained])

theorem run_lastId (h : Sound none s) (inputs : List Input) :
    s.roster.lastId ≤ (s.run inputs).roster.lastId := by
  induction inputs generalizing s with
  | nil => exact Nat.le_refl _
  | cons input inputs ih =>
    exact Nat.le_trans (h.step_lastId input) (ih (h.step input))

/-- A number that was given belongs to nobody else later. -/
theorem step_live_was (h : Sound none s) (hx : x ≤ s.roster.lastId)
    (hl : (s.step input).roster.Live x name role) :
    s.roster.Live x name role := by
  rcases h.step_moves input with hm | hdrained
  · exact hm.live_was (fun _ => hx) hl
  · rw [hdrained] at hl
    exact hl

theorem run_live_was (h : Sound none s) (hx : x ≤ s.roster.lastId)
    (hl : (s.run inputs).roster.Live x name role) :
    s.roster.Live x name role := by
  induction inputs generalizing s with
  | nil => exact hl
  | cons input inputs ih =>
    exact h.step_live_was hx (ih (h.step input)
      (Nat.le_trans hx (h.step_lastId input)) hl)

theorem step_offer? (h : Sound none s) (hpub : ¬ input.Publishes x)
    (hx : x ≤ s.roster.lastId)
    (hl : (s.step input).roster.Live x name role) :
    (s.step input).inventory.offer? x id = s.inventory.offer? x id := by
  rcases h.step_moves input with hm | hdrained
  · exact hm.offer? (fun hk => hpub hk.publishes) hx hl
  · rw [hdrained]

/-- As long as a session is live, what it offers is changed by nothing but
its own publications. -/
theorem run_offer? (h : Sound none s)
    (hpub : ∀ input ∈ inputs, ¬ input.Publishes x)
    (hx : x ≤ s.roster.lastId)
    (hl : (s.run inputs).roster.Live x name role) :
    (s.run inputs).inventory.offer? x id = s.inventory.offer? x id := by
  induction inputs generalizing s with
  | nil => rfl
  | cons input inputs ih =>
    obtain ⟨hfirst, hrest⟩ := List.forall_mem_cons.1 hpub
    have hx' := Nat.le_trans hx (h.step_lastId input)
    have hmid : (s.step input).roster.Live x name role :=
      (h.step input).run_live_was hx' hl
    show ((s.step input).run inputs).inventory.offer? x id = _
    rw [ih (h.step input) hrest hx' hl, h.step_offer? hfirst hx hmid]

end Sound

end Coordinator

-- ============================================================= publications

/-- A session offers what some announcements say under a name, and nothing
else. -/
structure Inventory.Offers (inv : Inventory) (session : SessionId)
    (exporter : String) (specs : List ResourceSpec) : Prop where
  only : ∀ id params, inv.offer? session id = some params →
    id ∈ specs.map (·.idFor exporter)
  all : ∀ spec ∈ specs, ∃ params,
    inv.offer? session (spec.idFor exporter) = some params
      ∧ params.same spec.params = true

/-- Under a name there is what some announcements say, and nothing
else. -/
structure Inventory.Lists (inv : Inventory) (exporter : String)
    (specs : List ResourceSpec) : Prop where
  only : ∀ r ∈ inv.all, r.id.exporter = exporter →
    r.id ∈ specs.map (·.idFor exporter)
  all : ∀ spec ∈ specs, ∃ r, inv.get? (spec.idFor exporter) = some r
    ∧ r.params.same spec.params = true

namespace Coordinator

variable {session : SessionId} {exporter : String}
  {specs : List ResourceSpec} {count : Nat}

theorem Republished.offers
    (h : Republished session exporter specs count s s') :
    s'.inventory.Offers session exporter specs where
  only id params hoffer :=
    (h.owned id).1 (Inventory.offer?_eq_some.1 hoffer).1
  all spec hspec := by
    obtain ⟨r, hget, hsame⟩ := h.given spec hspec
    have hown := (h.owned _).2 (List.mem_map_of_mem hspec)
    exact ⟨r.params, Inventory.offer?_eq_some.2 ⟨hown, r, hget, rfl⟩,
      hsame⟩

/-- What a live exporter offers is what is listed under its name. -/
theorem Sound.lists (h : Sound l s)
    (hl : s.roster.Live session exporter .exporter)
    (ho : s.inventory.Offers session exporter specs) :
    s.inventory.Lists exporter specs where
  only r hr hname := by
    obtain ⟨e, he, rfl⟩ :=
      Inventory.get?_eq_some.1 (h.inventory.mem_all.1 hr)
    refine ho.only _ e.resource.params (Inventory.offer?_eq_some.2 ⟨?_, ?_⟩)
    · exact Inventory.ownerOf?_eq_some.2
        ⟨e, he, h.owns hl _ e he hname⟩
    · exact ⟨e.resource, Inventory.get?_eq_some.2 ⟨e, he, rfl⟩, rfl⟩
  all spec hspec := by
    obtain ⟨params, hoffer, hsame⟩ := ho.all spec hspec
    obtain ⟨-, r, hget, rfl⟩ := Inventory.offer?_eq_some.1 hoffer
    exact ⟨r, hget, hsame⟩

/-- A session that was given to an exporter of some name, live or not. -/
structure Enrolled (session : SessionId) (exporter : String)
    (s : State) : Prop where
  sound : Sound none s
  given : session ≤ s.roster.lastId
  who : ∀ name role, s.roster.Live session name role →
    name = exporter ∧ role = .exporter

/-- A session that offers what some announcements say as long as it is
live. -/
structure Stocked (session : SessionId) (exporter : String)
    (specs : List ResourceSpec) (s : State) : Prop
    extends Enrolled session exporter s where
  stock : s.roster.Live session exporter .exporter →
    s.inventory.Offers session exporter specs

namespace Enrolled

variable {inputs : List Input}

/-- Whoever registers is enrolled. -/
theorem register (h : Sound none s) {now : Moment}
    (hok : ((Action.register exporter .exporter now).apply s).1
      = .ok session) :
    Enrolled session exporter
      ((Action.register exporter .exporter now).apply s).2 := by
  have hs := h.step (.register exporter .exporter now)
  unfold State.step at hs
  dsimp only at hs
  rw [Action.register_apply] at hok hs ⊢
  cases hr : (s.cleared exporter now).roster.register exporter .exporter
      now with
  | error e =>
    rw [hr] at hok
    cases hok
  | ok out =>
    obtain ⟨id, roster⟩ := out
    rw [hr] at hok hs
    cases hok
    obtain ⟨-, -, -, rfl⟩ := Roster.register_ok hr
    refine ⟨hs, Nat.le_refl session, ?_⟩
    rintro name role ⟨o, ho, rfl, rfl⟩
    rw [Table.get?_insert, if_pos rfl] at ho
    cases ho
    exact ⟨rfl, rfl⟩

theorem run (h : Enrolled session exporter s) (inputs : List Input) :
    Enrolled session exporter (s.run inputs) :=
  ⟨h.sound.run inputs,
    Nat.le_trans h.given (h.sound.run_lastId inputs),
    fun name role hl => h.who name role (h.sound.run_live_was h.given hl)⟩

/-- The publication of a session that is live is granted if it announces
nothing twice, and one that is not live is refused. -/
theorem publish (h : Enrolled session exporter s)
    (hnd : (specs.map (·.idFor exporter)).Nodup) (now : Moment) :
    let told := (Action.execute session (.setResources specs) now).apply s
    ((∃ n, told.1 = .ok (.published n))
        ∧ Stocked session exporter specs told.2)
      ∨ ((∃ e, told.1 = .error e) ∧ told.2 = s
        ∧ s.isLive session = false) := by
  intro told
  cases hlive : s.isLive session with
  | false =>
    refine Or.inr ?_
    rcases Action.execute_outcome s session (.setResources specs) now with
      ⟨e, -, he⟩ | ⟨roster, hr, -⟩
    · exact ⟨⟨e, congrArg Prod.fst he⟩, congrArg Prod.snd he, rfl⟩
    · obtain ⟨o, ho, -⟩ := Roster.heartbeat_ok hr
      rw [State.isLive_iff.2 ⟨o, ho⟩] at hlive
      cases hlive
  | true =>
    refine Or.inl ?_
    obtain ⟨name, role, hl⟩ := State.isLive_iff_live.1 hlive
    obtain ⟨rfl, rfl⟩ := h.who name role hl
    have ⟨o, ho, _⟩ := hl
    obtain ⟨roster, hr⟩ := Roster.heartbeat_of_live ho now
    have hl' : roster.Live session name .exporter := .heartbeat hr hl
    obtain ⟨hiff, hdone⟩ :=
      (h.sound.heard hr).setResources_republished hl' specs now
    obtain ⟨n, hn⟩ := hiff.2 hnd
    have htold : told = _ := Action.execute_setResources_apply hr specs
    have hrun := h.run [.execute session (.setResources specs) now]
    refine ⟨⟨n, by rw [htold, hn]; rfl⟩, hrun, fun _ => ?_⟩
    rw [htold]
    exact (hdone n hn).offers

end Enrolled

namespace Stocked

variable {inputs : List Input}

/-- What a session offers stays so, whatever others do. -/
theorem run (h : Stocked session exporter specs s)
    (hpub : ∀ input ∈ inputs, ¬ input.Publishes session) :
    Stocked session exporter specs (s.run inputs) := by
  refine ⟨h.toEnrolled.run inputs, fun hl => ?_⟩
  have hoffer : ∀ id, (s.run inputs).inventory.offer? session id
      = s.inventory.offer? session id :=
    fun id => h.sound.run_offer? hpub h.given hl
  obtain ⟨honly, hall⟩ := h.stock (h.sound.run_live_was h.given hl)
  exact ⟨fun id params => hoffer id ▸ honly id params,
    fun spec hspec => hoffer _ ▸ hall spec hspec⟩

end Stocked

end Coordinator

end LabLease
