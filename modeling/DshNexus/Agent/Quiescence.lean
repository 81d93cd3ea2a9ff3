import DshNexus.Agent.ProcessRecovery

/-!
# When quiescence is declared

`Safe` is the invariant of the state directory: whoever holds a lock does so alone, and an owner
that exists, or a group with a live member, is still ahead of every reconciliation under way.

* `safe_ownerStep`, `safe_reconcileStep`: the steps of the two parties keep it.
* `Exclusive`: what the two parties do not check of each other.
* `quiescent_of_exclusive`: in a run that meets it, a reconciliation that succeeds leaves nothing
  running.
* `creationRace_declares`: a run that does not.
-/

namespace DshNexus.Agent

open Concurrent Table

/-! ## Phases -/

/-- The owner holds the lock of its lock file. -/
def OwnerPhase.Leased (phase : OwnerPhase) : Prop :=
  phase = .locked ∨ phase = .pidWritten ∨ phase = .live ∨ phase = .recordRemoved ∨
    phase = .pidRemoved

/-- `create` has returned the owner, and `finish` has not returned. -/
def OwnerPhase.Exists (phase : OwnerPhase) : Prop :=
  phase = .live ∨ phase = .recordRemoved ∨ phase = .pidRemoved ∨ phase = .leaseDropped

/-- The reconciliation holds the lock of the file. -/
def ReconcilePhase.Holds (phase : ReconcilePhase) (id : String) : Prop :=
  phase = .locked id ∨ phase = .recorded id ∨ phase = .quiescent id ∨ phase = .recordRemoved id ∨
    phase = .pidRemoved id

/-- The reconciliation will still try the lock of the file. -/
def Reconcile.Ahead (reconcile : Reconcile) (id : String) : Prop :=
  (id ∈ reconcile.pending ∨ reconcile.phase = .opened id) ∧
    ¬ reconcile.phase.Holds id ∧ reconcile.phase ≠ .leaseDropped id

/-- The reconciliation will still check the group of the file. -/
def Reconcile.AheadOfCheck (reconcile : Reconcile) (id : String) : Prop :=
  (id ∈ reconcile.pending ∨ reconcile.phase = .opened id ∨ reconcile.phase = .locked id ∨
    reconcile.phase = .recorded id) ∧
  reconcile.phase ≠ .quiescent id ∧ reconcile.phase ≠ .recordRemoved id ∧
    reconcile.phase ≠ .pidRemoved id ∧ reconcile.phase ≠ .leaseDropped id

/-- No owner exists, and no group has a live member. -/
def Quiescent (s : Registry) : Prop :=
  (∀ id phase, s.owners.lookup id = some phase → ¬ phase.Exists) ∧ s.live = []

/-- Owners are not created across a reconciliation: the lock of a lock file is taken before any
reconciliation has dropped it, `create` returns when every reconciliation under way has the
lock file ahead, and no reconciliation takes the lock that `finish` has just dropped. -/
def Exclusive (s : Registry) : RegistryEvent → Prop
  | .tryLock id => id ∈ s.lockFiles ∧
      ForallEntry s.reconciles fun _ reconcile => reconcile.phase ≠ .leaseDropped id
  | .writeRecord id _ => ForallEntry s.reconciles fun _ reconcile => reconcile.Ahead id
  | .lockLease r => ForallEntry s.owners fun id phase => phase = .leaseDropped →
      (s.reconciles.lookup r).map (·.phase) ≠ some (.opened id)
  | _ => True

/-- The invariant of the state directory. -/
structure Safe (s : Registry) : Prop where
  leased : ∀ id phase, s.owners.lookup id = some phase → phase.Leased →
    s.held.lookup id = some .owner
  holds : ∀ r reconcile id, s.reconciles.lookup r = some reconcile → reconcile.phase.Holds id →
    s.held.lookup id = some (.reconcile r)
  linked : ∀ id phase, s.owners.lookup id = some phase → phase.Leased ∨ phase = .leaseDropped →
    id ∈ s.lockFiles ∧ ∀ r reconcile, s.reconciles.lookup r = some reconcile →
      reconcile.phase ≠ .leaseDropped id
  ahead : ∀ id phase, s.owners.lookup id = some phase → phase.Exists →
    ∀ r reconcile, s.reconciles.lookup r = some reconcile → reconcile.Ahead id
  recorded : ∀ id, s.owners.lookup id = some .live → (s.records.lookup id).isSome = true
  identified : ∀ id phase, s.owners.lookup id = some phase → phase = .pidWritten ∨ phase = .live →
    (s.pids.lookup id).isSome = true
  group : ∀ id ∈ s.live, (s.records.lookup id).isSome = true ∧ s.pids.lookup id = some true ∧
    id ∈ s.lockFiles ∧ (s.owners.lookup id = some .live ∨ s.owners.lookup id = some .gone) ∧
    ∀ r reconcile, s.reconciles.lookup r = some reconcile → reconcile.AheadOfCheck id

variable {s s' : Registry}

/-! ## Owners -/

theorem safe_createLock (h : Safe s) {id : String} (hid : s.owners.lookup id = none) :
    Safe { s.setOwner id .created with lockFiles := id :: s.lockFiles } := by
  obtain ⟨hleased, hholds, hlinked, hahead, hrecorded, hpid, hgroup⟩ := h
  unfold Registry.setOwner
  constructor <;> dsimp only <;> grind [OwnerPhase.Leased, OwnerPhase.Exists]

theorem safe_tryLock (h : Safe s) {id : String} (hid : s.owners.lookup id = some .created)
    (hfree : s.held.lookup id = none) (hx : Exclusive s (.tryLock id)) :
    Safe { s.setOwner id .locked with held := s.held.insert id .owner } := by
  obtain ⟨hleased, hholds, hlinked, hahead, hrecorded, hpid, hgroup⟩ := h
  obtain ⟨hfile, hdropped⟩ := hx
  unfold ForallEntry at hdropped
  unfold Registry.setOwner
  constructor <;> dsimp only <;> grind [OwnerPhase.Leased, OwnerPhase.Exists]

theorem safe_writePid (h : Safe s) {id : String} (hid : s.owners.lookup id = some .locked) :
    Safe { s.setOwner id .pidWritten with pids := s.pids.insert id false } := by
  obtain ⟨hleased, hholds, hlinked, hahead, hrecorded, hpid, hgroup⟩ := h
  unfold Registry.setOwner
  constructor <;> dsimp only <;> grind [OwnerPhase.Leased, OwnerPhase.Exists]

theorem safe_writeRecord (h : Safe s) {id job : String}
    (hid : s.owners.lookup id = some .pidWritten) (hx : Exclusive s (.writeRecord id job)) :
    Safe { s.setOwner id .live with records := s.records.insert id job } := by
  obtain ⟨hleased, hholds, hlinked, hahead, hrecorded, hpid, hgroup⟩ := h
  unfold Exclusive ForallEntry at hx
  unfold Registry.setOwner
  constructor <;> dsimp only <;> grind [OwnerPhase.Leased, OwnerPhase.Exists]

theorem safe_dropOwner (h : Safe s) {id : String} {phase : OwnerPhase}
    (hid : s.owners.lookup id = some phase) : Safe (s.dropOwner id phase) := by
  obtain ⟨hleased, hholds, hlinked, hahead, hrecorded, hpid, hgroup⟩ := h
  unfold Registry.dropOwner
  constructor <;> dsimp only <;> grind [OwnerPhase.Leased, OwnerPhase.Exists]

theorem safe_spawn (h : Safe s) {id : String} (hid : s.owners.lookup id = some .live) :
    Safe { s with pids := s.pids.insert id true, live := id :: s.live } := by
  have hahead' : ∀ r reconcile, s.reconciles.lookup r = some reconcile →
      reconcile.AheadOfCheck id := by
    intro r reconcile hr
    have := h.ahead id .live hid (Or.inl rfl) r reconcile hr
    grind [Reconcile.Ahead, Reconcile.AheadOfCheck, ReconcilePhase.Holds]
  obtain ⟨hleased, hholds, hlinked, hahead, hrecorded, hpid, hgroup⟩ := h
  constructor <;> dsimp only <;> grind [OwnerPhase.Leased]

theorem safe_groupExits (h : Safe s) (id : String) :
    Safe { s with live := s.live.filter (· ≠ id) } := by
  obtain ⟨hleased, hholds, hlinked, hahead, hrecorded, hpid, hgroup⟩ := h
  constructor <;> dsimp only <;> grind

theorem safe_finishRecord (h : Safe s) {id : String} (hid : s.owners.lookup id = some .live)
    (hdead : id ∉ s.live) :
    Safe { s.setOwner id .recordRemoved with records := s.records.erase id } := by
  obtain ⟨hleased, hholds, hlinked, hahead, hrecorded, hpid, hgroup⟩ := h
  unfold Registry.setOwner
  constructor <;> dsimp only <;> grind [OwnerPhase.Leased, OwnerPhase.Exists]

theorem safe_finishPid (h : Safe s) {id : String}
    (hid : s.owners.lookup id = some .recordRemoved) :
    Safe { s.setOwner id .pidRemoved with pids := s.pids.erase id } := by
  obtain ⟨hleased, hholds, hlinked, hahead, hrecorded, hpid, hgroup⟩ := h
  unfold Registry.setOwner
  constructor <;> dsimp only <;> grind [OwnerPhase.Leased, OwnerPhase.Exists]

theorem safe_finishLease (h : Safe s) {id : String} (hid : s.owners.lookup id = some .pidRemoved) :
    Safe { s.setOwner id .leaseDropped with held := s.held.erase id } := by
  obtain ⟨hleased, hholds, hlinked, hahead, hrecorded, hpid, hgroup⟩ := h
  unfold Registry.setOwner
  constructor <;> dsimp only <;> grind [OwnerPhase.Leased, OwnerPhase.Exists]

theorem safe_finishLock (h : Safe s) {id : String}
    (hid : s.owners.lookup id = some .leaseDropped) :
    Safe { s.setOwner id .gone with lockFiles := s.lockFiles.filter (· ≠ id) } := by
  obtain ⟨hleased, hholds, hlinked, hahead, hrecorded, hpid, hgroup⟩ := h
  unfold Registry.setOwner
  constructor <;> dsimp only <;> grind [OwnerPhase.Leased, OwnerPhase.Exists]

/-! ## Reconciliations -/

theorem safe_list (h : Safe s) (r : Nat) : Safe (s.setReconcile r ⟨s.lockFiles, 0, .next⟩) := by
  obtain ⟨hleased, hholds, hlinked, hahead, hrecorded, hpid, hgroup⟩ := h
  unfold Registry.setReconcile
  constructor <;> dsimp only
  · exact hleased
  · grind [ReconcilePhase.Holds]
  · grind
  · grind [OwnerPhase.Exists, OwnerPhase.Leased, Reconcile.Ahead, ReconcilePhase.Holds]
  · exact hrecorded
  · exact hpid
  · grind [Reconcile.AheadOfCheck]

variable {r : Nat}

theorem held_endReconcile {reconcile : Reconcile} {id : String} (h : ¬ reconcile.phase.Holds id) :
    (s.endReconcile r reconcile).held.lookup id = s.held.lookup id := by
  obtain ⟨pending, entries, phase⟩ := reconcile
  unfold Registry.endReconcile
  cases phase <;> dsimp only <;> grind [ReconcilePhase.Holds]

theorem safe_endReconcile (h : Safe s) {reconcile reconcile' : Reconcile}
    (hr : s.reconciles.lookup r = some reconcile)
    (hphase : ∀ id, reconcile'.phase.Holds id → reconcile.phase.Holds id) :
    Safe (s.endReconcile r reconcile') := by
  obtain ⟨hleased, hholds, hlinked, hahead, hrecorded, hpid, hgroup⟩ := h
  have hlookup : ∀ r' x, (s.endReconcile r reconcile').reconciles.lookup r' = some x →
      r' ≠ r ∧ s.reconciles.lookup r' = some x := by
    intro r' x hx
    rw [Registry.endReconcile, lookup_erase] at hx
    split at hx
    · exact nomatch hx
    · next hne => exact ⟨hne, hx⟩
  constructor
  · intro id phase hid hl
    rw [held_endReconcile fun hheld => ?_]
    · exact hleased id phase hid hl
    · have hr' := hholds r reconcile id hr (hphase id hheld)
      exact nomatch (hleased id phase hid hl).symm.trans hr'
  · intro r' x id hx hheld
    obtain ⟨hne, hx⟩ := hlookup r' x hx
    rw [held_endReconcile fun hheld' => ?_]
    · exact hholds r' x id hx hheld
    · have hr' := (hholds r reconcile id hr (hphase id hheld')).symm.trans (hholds r' x id hx hheld)
      exact hne (Holder.reconcile.inj (Option.some.inj hr')).symm
  · exact fun id phase hid hc => ⟨(hlinked id phase hid hc).1, fun r' x hx =>
      (hlinked id phase hid hc).2 r' x (hlookup r' x hx).2⟩
  · exact fun id phase hid he r' x hx => hahead id phase hid he r' x (hlookup r' x hx).2
  · exact hrecorded
  · exact hpid
  · intro id hid
    obtain ⟨h1, h2, h3, h4, h5⟩ := hgroup id hid
    exact ⟨h1, h2, h3, h4, fun r' x hx => h5 r' x (hlookup r' x hx).2⟩

theorem safe_openLock (h : Safe s) {id : String} {pending : List String} {entries entries' : Nat}
    (hr : s.reconciles.lookup r = some ⟨id :: pending, entries, .next⟩) :
    Safe (s.setReconcile r ⟨pending, entries', .opened id⟩) := by
  obtain ⟨hleased, hholds, hlinked, hahead, hrecorded, hpid, hgroup⟩ := h
  unfold Registry.setReconcile
  constructor <;> dsimp only
  · exact hleased
  · grind [ReconcilePhase.Holds]
  · grind
  · grind [Reconcile.Ahead, ReconcilePhase.Holds]
  · exact hrecorded
  · exact hpid
  · grind [Reconcile.AheadOfCheck]

theorem safe_lockLease (h : Safe s) {reconcile : Reconcile} {id : String}
    (hr : s.reconciles.lookup r = some reconcile) (hopened : reconcile.phase = .opened id)
    (hfree : s.held.lookup id = none) (hx : Exclusive s (.lockLease r)) :
    Safe { s.setPhase r reconcile (.locked id) with held := s.held.insert id (.reconcile r) } := by
  have hfinishing : s.owners.lookup id ≠ some .leaseDropped := fun hid =>
    hx id _ hid rfl (by rw [hr, Option.map_some, hopened])
  have hnone : ∀ phase, s.owners.lookup id = some phase → ¬ phase.Exists := by
    intro phase hphase hexists
    have := h.leased id phase hphase
    grind [OwnerPhase.Leased, OwnerPhase.Exists]
  obtain ⟨hleased, hholds, hlinked, hahead, hrecorded, hpid, hgroup⟩ := h
  unfold Registry.setPhase Registry.setReconcile
  constructor <;> dsimp only
  · grind
  · grind [ReconcilePhase.Holds]
  · grind
  · grind [Reconcile.Ahead, ReconcilePhase.Holds]
  · exact hrecorded
  · exact hpid
  · grind [Reconcile.AheadOfCheck]

theorem safe_setPhase (h : Safe s) {reconcile : Reconcile}
    (hr : s.reconciles.lookup r = some reconcile) (phase : ReconcilePhase) (id : String)
    (hheld : reconcile.phase.Holds id) (hheld' : phase.Holds id)
    (hdead : id ∈ s.live → reconcile.phase = .locked id ∧ phase = .recorded id) :
    Safe (s.setPhase r reconcile phase) := by
  have hlease := h.holds r reconcile id hr hheld
  obtain ⟨hleased, hholds, hlinked, hahead, hrecorded, hpid, hgroup⟩ := h
  unfold Registry.setPhase Registry.setReconcile
  constructor <;> dsimp only
  · exact hleased
  · grind [ReconcilePhase.Holds]
  · grind [ReconcilePhase.Holds]
  · grind [Reconcile.Ahead, ReconcilePhase.Holds]
  · exact hrecorded
  · exact hpid
  · grind [Reconcile.AheadOfCheck, ReconcilePhase.Holds]

theorem Safe.dead (h : Safe s) {reconcile : Reconcile} {id : String}
    (hr : s.reconciles.lookup r = some reconcile)
    (hphase : reconcile.phase = .quiescent id ∨ reconcile.phase = .recordRemoved id ∨
    reconcile.phase = .pidRemoved id ∨ reconcile.phase = .leaseDropped id) : id ∉ s.live := by
  intro hid
  obtain ⟨-, hq, hrec, hpid, hlease⟩ := (h.group id hid).2.2.2.2 r reconcile hr
  tauto

theorem safe_removeFile (h : Safe s) {reconcile : Reconcile} {id : String}
    (hr : s.reconciles.lookup r = some reconcile) (hheld : reconcile.phase.Holds id)
    (hdead : id ∉ s.live) {records : AList fun _ : String => String}
    {pids : AList fun _ : String => Bool} (hrecords : ∀ other, other ≠ id → records.lookup other =
    s.records.lookup other) (hpids : ∀ other, other ≠ id → pids.lookup other =
    s.pids.lookup other) : Safe { s with records, pids } := by
  have hlease := h.holds r reconcile id hr hheld
  obtain ⟨hleased, hholds, hlinked, hahead, hrecorded, hpid, hgroup⟩ := h
  have hne : ∀ other phase, s.owners.lookup other = some phase → phase.Leased → other ≠ id := by
    rintro other phase hother hl rfl
    exact nomatch (hleased other phase hother hl).symm.trans hlease
  refine ⟨hleased, hholds, hlinked, hahead, fun other hother => ?_,
    fun other phase hother hphase => ?_, fun other hother => ?_⟩
  · rw [hrecords other (hne other _ hother (by grind [OwnerPhase.Leased]))]
    exact hrecorded other hother
  · rw [hpids other (hne other _ hother (by grind [OwnerPhase.Leased]))]
    exact hpid other phase hother hphase
  · have hother' : other ≠ id := by rintro rfl; exact hdead hother
    rw [hrecords other hother', hpids other hother']
    exact hgroup other hother

theorem safe_deleteRecord (h : Safe s) {reconcile : Reconcile} {id : String}
    (hr : s.reconciles.lookup r = some reconcile) (hphase : reconcile.phase = .quiescent id) :
    Safe { s.setPhase r reconcile (.recordRemoved id) with records := s.records.erase id } := by
  have hdead := h.dead hr (Or.inl hphase)
  have hset := safe_setPhase h hr (.recordRemoved id) id
    (by grind [ReconcilePhase.Holds]) (by grind [ReconcilePhase.Holds]) fun hid => absurd hid hdead
  refine safe_removeFile hset (AList.lookup_insert _)
    (by grind [ReconcilePhase.Holds]) hdead (fun other hne => ?_) fun _ _ => rfl
  exact AList.lookup_erase_ne hne

theorem safe_deletePid (h : Safe s) {reconcile : Reconcile} {id : String}
    (hr : s.reconciles.lookup r = some reconcile) (hphase : reconcile.phase = .recordRemoved id) :
    Safe { s.setPhase r reconcile (.pidRemoved id) with pids := s.pids.erase id } := by
  have hdead := h.dead hr (Or.inr (Or.inl hphase))
  have hset := safe_setPhase h hr (.pidRemoved id) id
    (by grind [ReconcilePhase.Holds]) (by grind [ReconcilePhase.Holds]) fun hid => absurd hid hdead
  refine safe_removeFile hset (AList.lookup_insert _)
    (by grind [ReconcilePhase.Holds]) hdead (fun _ _ => rfl) fun other hne => ?_
  exact AList.lookup_erase_ne hne

theorem safe_dropLease (h : Safe s) {reconcile : Reconcile} {id : String}
    (hr : s.reconciles.lookup r = some reconcile) (hphase : reconcile.phase = .pidRemoved id) :
    Safe { s.setPhase r reconcile (.leaseDropped id) with held := s.held.erase id } := by
  have hdead := h.dead hr (Or.inr (Or.inr (Or.inl hphase)))
  have hlease := h.holds r reconcile id hr (by grind [ReconcilePhase.Holds])
  obtain ⟨hleased, hholds, hlinked, hahead, hrecorded, hpid, hgroup⟩ := h
  unfold Registry.setPhase Registry.setReconcile
  constructor <;> dsimp only
  · grind
  · grind [ReconcilePhase.Holds]
  · grind [OwnerPhase.Exists, Reconcile.Ahead, ReconcilePhase.Holds]
  · grind [Reconcile.Ahead, ReconcilePhase.Holds]
  · exact hrecorded
  · exact hpid
  · grind [Reconcile.AheadOfCheck]

theorem safe_unlinkLock (h : Safe s) {reconcile : Reconcile} {id : String}
    (hr : s.reconciles.lookup r = some reconcile) (hphase : reconcile.phase = .leaseDropped id) :
    Safe { s.setPhase r reconcile .next with lockFiles := s.lockFiles.filter (· ≠ id) } := by
  have hdead := h.dead hr (Or.inr (Or.inr (Or.inr hphase)))
  obtain ⟨hleased, hholds, hlinked, hahead, hrecorded, hpid, hgroup⟩ := h
  unfold Registry.setPhase Registry.setReconcile
  constructor <;> dsimp only
  · exact hleased
  · grind [ReconcilePhase.Holds]
  · grind
  · grind [Reconcile.Ahead, ReconcilePhase.Holds]
  · exact hrecorded
  · exact hpid
  · grind [Reconcile.AheadOfCheck]

/-! ## Runs -/

def RegistryEvent.owner? : RegistryEvent → Option String
  | .tryLock id | .writePid id | .writeRecord id _ | .createFails id | .spawn id | .crash id
  | .finishRecord id | .finishPid id | .finishLease id | .finishLock id | .finishFails id => some id
  | _ => none

theorem safe_ownerStep (h : Safe s) {id : String} {phase : OwnerPhase} {event : RegistryEvent}
    (hid : s.owners.lookup id = some phase) (hx : Exclusive s event)
    (hevent : event.owner? = some id)
    (hstep : s.ownerStep id phase event = some s') : Safe s' := by
  cases event with
  | tryLock other =>
    obtain rfl : other = id := Option.some.inj hevent
    dsimp only [Registry.ownerStep] at hstep
    split at hstep
    · next hfree =>
      rw [← Option.some.inj hstep]
      exact safe_tryLock h hid hfree hx
    · next hheld =>
      rw [← Option.some.inj hstep]
      exact safe_dropOwner h hid
    · exact nomatch hstep
  | writePid other =>
    rw [Registry.ownerStep] at hstep
    split at hstep
    · next hphase =>
      rw [← Option.some.inj hstep]
      exact safe_writePid h (hphase ▸ hid)
    · exact nomatch hstep
  | writeRecord other job =>
    obtain rfl : other = id := Option.some.inj hevent
    rw [Registry.ownerStep] at hstep
    split at hstep
    · next hphase =>
      rw [← Option.some.inj hstep]
      exact safe_writeRecord h (hphase ▸ hid) hx
    · exact nomatch hstep
  | createFails other =>
    rw [Registry.ownerStep] at hstep
    split at hstep
    · rw [← Option.some.inj hstep]
      exact safe_dropOwner h hid
    · exact nomatch hstep
  | spawn other =>
    rw [Registry.ownerStep] at hstep
    split at hstep
    · next hphase =>
      rw [← Option.some.inj hstep]
      exact safe_spawn h (hphase.1 ▸ hid)
    · exact nomatch hstep
  | crash other =>
    rw [Registry.ownerStep] at hstep
    split at hstep
    · exact nomatch hstep
    · rw [← Option.some.inj hstep]
      exact safe_dropOwner h hid
  | finishRecord other =>
    rw [Registry.ownerStep] at hstep
    split at hstep
    · next hphase =>
      rw [← Option.some.inj hstep]
      exact safe_finishRecord h (hphase.1 ▸ hid) hphase.2
    · exact nomatch hstep
  | finishPid other =>
    rw [Registry.ownerStep] at hstep
    split at hstep
    · next hphase =>
      rw [← Option.some.inj hstep]
      exact safe_finishPid h (hphase ▸ hid)
    · exact nomatch hstep
  | finishLease other =>
    rw [Registry.ownerStep] at hstep
    split at hstep
    · next hphase =>
      rw [← Option.some.inj hstep]
      exact safe_finishLease h (hphase ▸ hid)
    · exact nomatch hstep
  | finishLock other =>
    rw [Registry.ownerStep] at hstep
    split at hstep
    · next hphase =>
      rw [← Option.some.inj hstep]
      exact safe_finishLock h (hphase ▸ hid)
    · exact nomatch hstep
  | finishFails other =>
    rw [Registry.ownerStep] at hstep
    split at hstep
    · rw [← Option.some.inj hstep]
      exact safe_dropOwner h hid
    · exact nomatch hstep
  | _ => exact nomatch hstep

theorem safe_reconcileStep (h : Safe s) {reconcile : Reconcile} {event : RegistryEvent}
    (hr : s.reconciles.lookup r = some reconcile)
    (hx : ∀ other, event = .lockLease other → other = r ∧ Exclusive s (.lockLease r))
    (hstep : s.reconcileStep r reconcile event = some s') : Safe s' := by
  have hend : Safe (s.endReconcile r reconcile) := safe_endReconcile h hr fun _ hid => hid
  cases event with
  | openLock other =>
    dsimp only [Registry.reconcileStep] at hstep
    split at hstep
    · next id pending hphase hpending =>
      obtain ⟨_, entries, _⟩ := reconcile
      obtain rfl : _ = ReconcilePhase.next := hphase
      obtain rfl : _ = id :: pending := hpending
      split at hstep
      · rw [← Option.some.inj hstep]
        exact safe_endReconcile h hr fun id hid => by grind [ReconcilePhase.Holds]
      · rw [← Option.some.inj hstep]
        exact safe_openLock h hr
    · exact nomatch hstep
  | lockLease other =>
    dsimp only [Registry.reconcileStep] at hstep
    split at hstep
    · next id hphase =>
      split at hstep
      · rw [← Option.some.inj hstep]
        exact hend
      · next hfree =>
        rw [← Option.some.inj hstep]
        exact safe_lockLease h hr hphase (Option.not_isSome_iff_eq_none.mp hfree) (hx other rfl).2
    · exact nomatch hstep
  | readRecord other =>
    dsimp only [Registry.reconcileStep] at hstep
    split at hstep
    · next id hphase =>
      have hheld : reconcile.phase.Holds id := Or.inl hphase
      split at hstep
      · next hnone =>
        rw [← Option.some.inj hstep]
        refine safe_setPhase h hr _ id hheld (by simp [ReconcilePhase.Holds]) fun hid => ?_
        have hsome := (h.group id hid).1
        rw [hnone] at hsome
        exact nomatch hsome
      · split at hstep
        · rw [← Option.some.inj hstep]
          exact hend
        · rw [← Option.some.inj hstep]
          exact safe_setPhase h hr _ id hheld (by simp [ReconcilePhase.Holds])
            fun _ => ⟨hphase, rfl⟩
    · exact nomatch hstep
  | checkGroup other =>
    dsimp only [Registry.reconcileStep] at hstep
    split at hstep
    · next id hphase =>
      have hheld : reconcile.phase.Holds id := Or.inr (Or.inl hphase)
      split at hstep
      · rw [← Option.some.inj hstep]
        exact hend
      · next group hgroup =>
        split at hstep
        · rw [← Option.some.inj hstep]
          exact hend
        · next hdead =>
          rw [← Option.some.inj hstep]
          refine safe_setPhase h hr _ id hheld (by simp [ReconcilePhase.Holds]) fun hid => ?_
          have hwritten := (h.group id hid).2.1
          rw [hgroup] at hwritten
          exact absurd ⟨Option.some.inj hwritten, hid⟩ hdead
    · exact nomatch hstep
  | deleteRecord other =>
    dsimp only [Registry.reconcileStep] at hstep
    split at hstep
    · next id hphase =>
      rw [← Option.some.inj hstep]
      exact safe_deleteRecord h hr hphase
    · exact nomatch hstep
  | deletePid other =>
    dsimp only [Registry.reconcileStep] at hstep
    split at hstep
    · next id hphase =>
      rw [← Option.some.inj hstep]
      exact safe_deletePid h hr hphase
    · exact nomatch hstep
  | dropLease other =>
    dsimp only [Registry.reconcileStep] at hstep
    split at hstep
    · next id hphase =>
      rw [← Option.some.inj hstep]
      exact safe_dropLease h hr hphase
    · exact nomatch hstep
  | unlinkLock other =>
    dsimp only [Registry.reconcileStep] at hstep
    split at hstep
    · next id hphase =>
      rw [← Option.some.inj hstep]
      exact safe_unlinkLock h hr hphase
    · exact nomatch hstep
  | returns other =>
    rw [Registry.reconcileStep] at hstep
    split at hstep
    · rw [← Option.some.inj hstep]
      exact hend
    · exact nomatch hstep
  | reconcileFails other =>
    rw [Registry.reconcileStep] at hstep
    rw [← Option.some.inj hstep]
    exact hend
  | _ => exact nomatch hstep

/-- **One step.** -/
theorem safe_step (h : Safe s) {event : RegistryEvent} (hx : Exclusive s event)
    (hstep : s.step event = some s') : Safe s' := by
  cases event with
  | createLock id =>
    rw [Registry.step] at hstep
    split at hstep
    · exact nomatch hstep
    · next hnew =>
      rw [not_or, Option.not_isSome_iff_eq_none] at hnew
      rw [← Option.some.inj hstep]
      exact safe_createLock h hnew.1
  | groupExits id =>
    rw [← Option.some.inj hstep]
    exact safe_groupExits h id
  | list r =>
    rw [Registry.step] at hstep
    split at hstep
    · exact nomatch hstep
    · rw [← Option.some.inj hstep]
      exact safe_list h r
  | tryLock id | writePid id | writeRecord id job | createFails id | spawn id | crash id
  | finishRecord id | finishPid id | finishLease id | finishLock id | finishFails id =>
    obtain ⟨phase, hid, hstep⟩ := Option.bind_eq_some_iff.mp hstep
    exact safe_ownerStep h hid hx rfl hstep
  | openLock r | readRecord r | checkGroup r | deleteRecord r | deletePid r | dropLease r
  | unlinkLock r | returns r | reconcileFails r =>
    obtain ⟨reconcile, hr, hstep⟩ := Option.bind_eq_some_iff.mp hstep
    exact safe_reconcileStep h hr (by rintro _ ⟨⟩) hstep
  | lockLease r =>
    obtain ⟨reconcile, hr, hstep⟩ := Option.bind_eq_some_iff.mp hstep
    exact safe_reconcileStep h hr (fun _ heq => ⟨(RegistryEvent.lockLease.inj heq).symm, hx⟩) hstep

theorem Safe.quiescent (h : Safe s) {reconcile : Reconcile}
    (hr : s.reconciles.lookup r = some reconcile) (hphase : reconcile.phase = .next)
    (hpending : reconcile.pending = []) : Quiescent s := by
  refine ⟨fun id phase hid hexists => ?_, List.eq_nil_iff_forall_not_mem.mpr fun id hid => ?_⟩
  · have hahead := (h.ahead id phase hid hexists r reconcile hr).1
    rw [hphase, hpending] at hahead
    simp at hahead
  · have hahead := ((h.group id hid).2.2.2.2 r reconcile hr).1
    rw [hphase, hpending] at hahead
    simp at hahead

/-- At the last step of a reconciliation that succeeds, nothing is running. -/
def DeclaredRightly (s : Registry) : RegistryEvent → Prop
  | .returns r => ∀ reconcile, s.reconciles.lookup r = some reconcile → reconcile.phase = .next →
      reconcile.pending = [] → Quiescent s
  | _ => True

/-- **Quiescence is never declared while an owner lives**, in every run in which owners are not
created across a reconciliation. -/
theorem quiescent_of_exclusive (events : List RegistryEvent)
    (h : Registry.system.RunMeets Exclusive events Registry.system.init) :
    Registry.system.RunMeets DeclaredRightly events Registry.system.init := by
  have hinit : Safe Registry.system.init := by
    constructor <;> simp [Registry.system]
  refine System.runMeets_of_invariant (I := Safe) (fun _ _ _ hs hx hstep => safe_step hs hx hstep)
    (fun s event hs _ => ?_) events _ hinit h
  cases event with
  | returns r => exact fun reconcile hr hphase hpending => hs.quiescent hr hphase hpending
  | _ => trivial

/-! ## Two runs -/

instance (phase : ReconcilePhase) (id : String) : Decidable (phase.Holds id) :=
  inferInstanceAs (Decidable (_ ∨ _))

instance (reconcile : Reconcile) (id : String) : Decidable (reconcile.Ahead id) :=
  inferInstanceAs (Decidable (_ ∧ _))

instance (s : Registry) : ∀ event, Decidable (Exclusive s event)
  | .tryLock _ => inferInstanceAs (Decidable (_ ∧ _))
  | .writeRecord _ _ => inferInstanceAs (Decidable (ForallEntry _ _))
  | .lockLease _ => inferInstanceAs (Decidable (ForallEntry _ _))
  | .createLock _ | .writePid _ | .createFails _ | .spawn _ | .groupExits _ | .crash _
  | .finishRecord _ | .finishPid _ | .finishLease _ | .finishLock _ | .finishFails _ | .list _
  | .openLock _ | .readRecord _ | .checkGroup _ | .deleteRecord _ | .deletePid _ | .dropLease _
  | .unlinkLock _ | .returns _ | .reconcileFails _ => isTrue trivial

def sampleId (digit : Char) : String := String.ofList (List.replicate 64 digit)

/-- The steps of a reconciliation with one lock file that has a record. -/
def reconcileOne (r : Nat) : List RegistryEvent :=
  [.list r, .openLock r, .lockLease r, .readRecord r, .checkGroup r, .deleteRecord r,
    .deletePid r, .dropLease r, .unlinkLock r]

/-- An owner runs a process and dies; the process exits; a reconciliation cleans up. -/
def cleanRecovery : List RegistryEvent :=
  let id := sampleId 'a'
  [.createLock id, .tryLock id, .writePid id, .writeRecord id "Global\\NexusCommand-a", .spawn id,
    .crash id, .groupExits id] ++ reconcileOne 0 ++ [.returns 0]

theorem cleanRecovery_declaredRightly :
    Registry.system.RunMeets DeclaredRightly cleanRecovery Registry.system.init :=
  quiescent_of_exclusive cleanRecovery (by decide +kernel)

/-- The lock file is found, locked, released and unlinked between its creation and its lock; the
next reconciliation finds nothing. -/
def creationRace : List RegistryEvent :=
  let id := sampleId 'a'
  [.createLock id, .list 0, .openLock 0, .lockLease 0, .readRecord 0, .deletePid 0, .dropLease 0,
    .tryLock id, .writePid id, .writeRecord id "Global\\NexusCommand-a", .unlinkLock 0, .spawn id,
    .list 1]

/-- **Quiescence can be declared while an owner lives**: after the race, the second
reconciliation returns while the owner exists and its group has a live member. -/
theorem creationRace_declares : ∃ s s', Registry.system.run creationRace Registry.system.init = some s ∧
    s.step (.returns 1) = some s' ∧ s.reconciles.lookup 1 = some ⟨[], 0, .next⟩ ∧
      s.owners.lookup (sampleId 'a') = some .live ∧ s.live = [sampleId 'a'] := by
  have hrun : (Registry.system.run creationRace Registry.system.init).map (fun s =>
      ((s.step (.returns 1)).isSome, s.reconciles.lookup 1, s.owners.lookup (sampleId 'a'),
        s.live)) = some (true, some ⟨[], 0, .next⟩, some .live, [sampleId 'a']) := by
    decide +kernel
  obtain ⟨s, hs, hrun⟩ := Option.map_eq_some_iff.mp hrun
  simp only [Prod.mk.injEq] at hrun
  obtain ⟨hreturns, hreconcile, howner, hlive⟩ := hrun
  obtain ⟨s', hs'⟩ := Option.isSome_iff_exists.mp hreturns
  exact ⟨s, s', hs, hs', hreconcile, howner, hlive⟩

end DshNexus.Agent
