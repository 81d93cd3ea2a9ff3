import DshNexus.Snapshot.RingProgress

/-!
# The healthy ring keeps the newest

Captures follow each other, each completed or cut at one of the two renames of its publication,
and each with a recovery after it.  The ring then holds the newest of the snapshots that have
reached a slot, as many as it has slots.

## 1. A capture that is cut

`RenameCut` says where.  A capture is its preparation and its publication (`captureHealthy_eq_prepare`), and
the faults of a cut leave the preparation alone.  `cutEnd_publication` says in what shape the
slot is then.

## 2. The recovery after it

`returns_recoverOrphanedHealthySlots_forward`: what was published stays, and a complete candidate
of a free slot is taken.  `roundEnds` puts both together: the slot that the capture has picked
holds the new snapshot, or still the old one.

## 3. What the ring holds

`Newest` is the invariant of the rounds, and `newest_of_roundEnds` its step lemma: a free slot is
filled before any snapshot goes, and the one that goes is the oldest.
-/

namespace DshNexus.Snapshot

open Durable Program

section Newest

variable {δ : Type} [DecidableEq δ] (env : SnapshotEnvironment δ)

/-! ## 1. A capture that is cut -/

/-- `capture` of a healthy snapshot, until its publication. -/
def prepareHealthy (input : CaptureInput) : RingProgram (Nat × SnapshotManifest δ) := do
  Program.ofExcept (validateMetadataText "DSH version" input.dshVersion MAX_METADATA_TEXT_BYTES)
  Program.attempt (.io "create directory")
  recoverOrphanedHealthySlots env
  let index ← nextHealthySlot env
  ensureNewDirectory ⟨.next, index⟩
  let result ← Program.toExcept do
    let manifest ← fillStaging env ⟨.next, index⟩ input
    checkPublication env index input.snapshotId
    pure manifest
  match result with
  | .ok manifest => pure (index, manifest)
  | .error e => do
      Program.ignoreError (removeDirectoryAll env ⟨.next, index⟩)
      throw e

theorem captureHealthy_eq_prepare (input : CaptureInput) :
    captureHealthy env input = (do
      let prepared ← prepareHealthy env input
      publishHealthySnapshot env prepared.1
      pure prepared.2) := by
  simp only [captureHealthy, prepareHealthy, bind_assoc]
  congr 1
  funext _
  congr 1
  funext _
  congr 1
  funext _
  congr 1
  funext index
  congr 1
  funext _
  congr 1
  funext result
  cases result with
  | ok manifest => rfl
  | error e => simp only [bind_assoc]; rfl

/-- Where a capture is cut, and how: at the first rename of its publication, at the second, or
not at all. -/
inductive RenameCut where
  | completed
  | first (fault : Fault)
  | second (fault : Fault)
  deriving DecidableEq, Repr

def RenameCut.faults : RenameCut → List Fault
  | .completed => []
  | .first fault => [fault]
  | .second fault => [.none, fault]

def RenameCut.captureFaults (cut : RenameCut) (input : CaptureInput) (s : RingDisk) : List Fault :=
  List.replicate ((prepareHealthy env input).stepCount s) .none ++ cut.faults

def cutCapture (round : CaptureInput × RenameCut) (s : RingDisk) : RingDisk :=
  Session.after (captureHealthy env round.1) (round.2.captureFaults env round.1 s) s

/-- The ring after a capture that is cut, and a recovery. -/
def ringRound (s : RingDisk) (round : CaptureInput × RenameCut) : RingDisk :=
  Session.after (recoverOrphanedHealthySlots env) [] (cutCapture env round s)

def ringRounds (s : RingDisk) (rounds : List (CaptureInput × RenameCut)) : RingDisk :=
  rounds.foldl (ringRound env) s

variable {env} {s s' t : RingDisk} {index : Nat} {input : CaptureInput}

/-- A capture has picked a free slot, or the oldest of a full ring. -/
structure PickedSlot (env : SnapshotEnvironment δ) (s : RingDisk) (index : Nat) : Prop where
  next : NextSlot env s index
  free_or_full : s.get ⟨.slot, index⟩ = none ∨
    ∀ j, 1 ≤ j ∧ j ≤ env.healthySlots → (s.get ⟨.slot, j⟩).isSome = true

omit [DecidableEq δ] in
theorem returns_nextHealthySlot_picked (hslots : 1 ≤ env.healthySlots) :
    (nextHealthySlot env).returns (fun index s' => s' = s ∧ PickedSlot env s index) s := by
  have hfull : (nextHealthySlot env).returns (fun index _ => s.get ⟨.slot, index⟩ = none ∨
      ∀ j, 1 ≤ j ∧ j ≤ env.healthySlots → (s.get ⟨.slot, j⟩).isSome = true) s := by
    rw [nextHealthySlot, returns_bind, returns_attempt, returns_bind,
      returns_read]
    split
    · next i hfind =>
      have hfree := List.find?_some hfind
      rw [Option.isNone_iff_eq_none] at hfree
      exact Or.inl hfree
    · next hfind =>
      have hne : slotIndices env ≠ [] :=
        List.ne_nil_of_mem (mem_slotIndices.mpr ⟨Nat.le_refl 1, hslots⟩)
      obtain ⟨i, hfold, -⟩ := foldl_oldestSlot env s hne
      rw [hfold]
      refine Or.inr fun j hj => ?_
      have hoccupied := List.find?_eq_none.mp hfind j (mem_slotIndices.mpr hj)
      rw [Option.isSome_iff_ne_none]
      simpa using hoccupied
  obtain ⟨index, s', hrun, hpicked⟩ := (returns_iff_run _ _ _).mp hfull
  obtain ⟨index', s'', hrun', rfl, hnext⟩ :=
    (returns_iff_run _ _ _).mp (returns_nextHealthySlot (s := s) hslots)
  rw [hrun] at hrun'
  obtain ⟨hindex, rfl⟩ := Prod.mk.inj hrun'
  rw [← Outcome.ok.inj hindex] at hnext
  exact (returns_iff_run _ _ _).mpr ⟨index, s', hrun, rfl, hnext, hpicked⟩

/-- What the preparation of a capture has done: the candidate of the slot is complete. -/
structure Prepared (env : SnapshotEnvironment δ) (input : CaptureInput) (s : RingDisk)
    (prepared : Nat × SnapshotManifest δ) (t : RingDisk) : Prop where
  picked : PickedSlot env s prepared.1
  only : Only ⟨.next, prepared.1⟩ s t
  candidate : ∃ staging, t.get ⟨.next, prepared.1⟩ = some staging ∧
    Holds env prepared.2 staging
  snapshotId : prepared.2.snapshotId = input.snapshotId
  createdUnixMs : prepared.2.createdUnixMs = input.createdUnixMs

theorem returns_prepareHealthy (hslots : 1 ≤ env.healthySlots) (h : TidyRing env s)
    (hdamage : NoDamage env s) (hin : Capturable env input) :
    (prepareHealthy env input).returns (Prepared env input s) s := by
  obtain ⟨captured, encoded, hcaptured, hencode, hload⟩ := hin.staged
  rw [prepareHealthy, hin.dshVersion]
  show Program.returns (recoverOrphanedHealthySlots env >>= _) _ s
  rw [returns_bind]
  refine returns_mono ?_ (returns_recoverOrphanedHealthySlots_tidy h)
  rintro _ t rfl
  rw [returns_bind]
  refine returns_mono ?_ (returns_nextHealthySlot_picked hslots)
  rintro index s₀ ⟨rfl, hpicked⟩
  obtain ⟨holdNone, hnextNone⟩ := h.orphans index
  have hfree : ¬ ((s₀.get ⟨.next, index⟩).isSome = true) := by
    rw [hnextNone]
    exact Bool.noConfusion
  rw [returns_bind, ensureNewDirectory, returns_bind, returns_read,
    if_neg hfree, returns_durable, returns_bind]
  have hput : Only ⟨.next, index⟩ s₀ (s₀.put ⟨.next, index⟩ ⟨none, none⟩) := .put s₀ _
  have hstaged : (Program.toExcept (do
      let manifest ← fillStaging env ⟨.next, index⟩ input
      checkPublication env index input.snapshotId
      pure manifest)).returns (fun result s' => ∃ manifest, result = .ok manifest ∧
        Prepared env input s₀ (index, manifest) s') (s₀.put ⟨.next, index⟩ ⟨none, none⟩) := by
    rw [Program.toExcept]
    refine returns_tryCatch ?_
    rw [returns_map, returns_bind]
    refine returns_mono ?_
      (returns_fillStaging hcaptured hencode (by rw [RingDisk.get_put_self]; rfl))
    rintro manifest s₁ ⟨⟨rfl, hstaging⟩, hwithin⟩
    have honly := hput.trans hwithin
    have hslot₁ := honly.others ⟨.slot, index⟩ (by simp)
    have hold₁ : s₁.get ⟨.old, index⟩ = none := by
      rw [honly.others ⟨.old, index⟩ (by simp)]
      exact holdNone
    rw [returns_bind]
    have hpasses : (checkPublication env index input.snapshotId).returns (fun _ t => t = s₁) s₁ := by
      refine returns_of_settles (settles_imp (fun _ _ ht => ht.1)
        (settles_checkPublication hstaging hload rfl rfl hold₁)) ?_
      rintro e _ ⟨rfl, directory, hdirectory, hdamaged⟩
      rw [hslot₁] at hdirectory
      exact hdamaged (hdamage index directory hdirectory)
    refine returns_mono ?_ hpasses
    rintro _ _ rfl
    exact ⟨_, rfl, hpicked, honly, ⟨_, hstaging, hload, rfl⟩, rfl, rfl⟩
  refine returns_mono ?_ hstaged
  rintro _ s₁ ⟨manifest, rfl, hprepared⟩
  exact hprepared

/-- The slot of a publication that was cut: it is as before, the candidate complete, or the old
snapshot has been moved aside, or the new one is in its place. -/
inductive CutShape (index : Nat) (staging : SnapshotDirectory) (s s' : RingDisk) : Prop where
  | before (hslot : s'.get ⟨.slot, index⟩ = s.get ⟨.slot, index⟩)
      (hold : s'.get ⟨.old, index⟩ = none) (hnext : s'.get ⟨.next, index⟩ = some staging)
  | between (hoccupied : (s.get ⟨.slot, index⟩).isSome = true)
      (hslot : s'.get ⟨.slot, index⟩ = none)
      (hold : s'.get ⟨.old, index⟩ = s.get ⟨.slot, index⟩)
      (hnext : s'.get ⟨.next, index⟩ = some staging)
  | placed (hslot : s'.get ⟨.slot, index⟩ = some staging)
      (hold : s'.get ⟨.old, index⟩ = none ∨ s'.get ⟨.old, index⟩ = s.get ⟨.slot, index⟩)
      (hnext : s'.get ⟨.next, index⟩ = none)

/-- What a publication that is cut leaves behind. -/
def CutEnd (index : Nat) (staging : SnapshotDirectory) (s s' : RingDisk) : Prop :=
  AtSlot index s s' ∧ CutShape index staging s s'

/-- The end of a publication, after its renames. -/
def removeOld (env : SnapshotEnvironment δ) (index : Nat) : RingProgram Unit := do
  let disk ← Program.read
  removeIf env (disk.get ⟨.old, index⟩).isSome ⟨.old, index⟩

omit [DecidableEq δ] in
theorem cutEnd_removeOld {staging : SnapshotDirectory} (hat : AtSlot index s t)
    (hslot : t.get ⟨.slot, index⟩ = some staging) (hnext : t.get ⟨.next, index⟩ = none) :
    (removeOld env index).returns (fun _ => CutEnd index staging s) t := by
  rw [removeOld, returns_bind, returns_read]
  refine returns_mono ?_ (returns_removeIf rfl)
  rintro _ s' ⟨honly, hgone⟩
  have hslot' : s'.get ⟨.slot, index⟩ = some staging := by
    rw [honly.others ⟨.slot, index⟩ (by simp)]
    exact hslot
  have hnext' : s'.get ⟨.next, index⟩ = none := by
    rw [honly.others ⟨.next, index⟩ (by simp)]
    exact hnext
  exact ⟨hat.trans honly.atSlot, .placed hslot' (Or.inl hgone) hnext'⟩

theorem run_renameSlot_bind {β : Type} {source destination : SlotName}
    (hsource : (s.get source).isSome = true) (hdestination : s.get destination = none)
    (g : Unit → RingProgram β) (fs : List Fault) :
    (renameSlot source destination >>= g).run fs s =
      (Program.step (fun disk : RingDisk => disk.move source destination) (g ())
        (Program.fail (.io "durably move"))).run fs s := by
  show ((if (s.get source).isSome = true ∧ s.get destination = none then _ else _) >>= g :
    RingProgram β).run fs s = _
  rw [if_pos ⟨hsource, hdestination⟩]
  rfl

theorem run_tryRenameSlot_bind {β : Type} {source destination : SlotName}
    (hsource : (s.get source).isSome = true) (hdestination : s.get destination = none)
    (handler : SnapshotError → RingProgram Unit) (g : Unit → RingProgram β) (fs : List Fault) :
    (tryCatch (renameSlot source destination) handler >>= g).run fs s =
      (Program.step (fun disk : RingDisk => disk.move source destination) (g ())
        (handler (.io "durably move") >>= g)).run fs s := by
  show (tryCatch (if (s.get source).isSome = true ∧ s.get destination = none then _ else _)
    handler >>= g : RingProgram β).run fs s = _
  rw [if_pos ⟨hsource, hdestination⟩]
  rfl

theorem after_step {σ ε α : Type} {I : σ → Prop} {f : σ → σ} {next onError : Program σ ε α} {s : σ}
    {fs : List Fault} (hfs : fs = [] ∨ ∃ fault, fs = [fault]) (hbefore : I s) (hafter : I (f s))
    (hnext : I (Session.after next [] (f s))) (herror : I (Session.after onError [] s))
    (herror' : I (Session.after onError [] (f s))) :
    I (Session.after (Program.step f next onError) fs s) := by
  rcases hfs with rfl | ⟨fault, rfl⟩
  · exact hnext
  · cases fault with
    | none => exact hnext
    | errorBefore => exact herror
    | errorAfter => exact herror'
    | crashBefore => exact hbefore
    | crashAfter => exact hafter

omit [DecidableEq δ] in
theorem cutEnd_moveCandidate {staging : SnapshotDirectory} (hat : AtSlot index s t)
    (hfree : t.get ⟨.slot, index⟩ = none) (hnext : t.get ⟨.next, index⟩ = some staging)
    (hold : t.get ⟨.old, index⟩ = s.get ⟨.slot, index⟩) {fs : List Fault}
    (hfs : fs = [] ∨ ∃ fault, fs = [fault]) :
    CutEnd index staging s
      (Session.after (moveCandidate index >>= fun _ => removeOld env index) fs t) := by
  have hmoved : Moved ⟨.next, index⟩ ⟨.slot, index⟩ staging t
      (t.move ⟨.next, index⟩ ⟨.slot, index⟩) := moved_move (by simp) hnext
  have hold' := hmoved.others ⟨.old, index⟩ (by simp) (by simp)
  have hbefore : CutEnd index staging s t := by
    refine ⟨hat, ?_⟩
    rcases hslot : s.get ⟨.slot, index⟩ with _ | previous
    · rw [hslot] at hold
      exact .before (hfree.trans hslot.symm) hold hnext
    · exact .between (by rw [hslot]; rfl) hfree hold hnext
  have hafter : CutEnd index staging s (t.move ⟨.next, index⟩ ⟨.slot, index⟩) :=
    ⟨hat.trans hmoved.atSlot, .placed hmoved.arrived (Or.inr (hold'.trans hold)) hmoved.left⟩
  unfold Session.after
  rw [moveCandidate, run_tryRenameSlot_bind (by rw [hnext]; rfl) hfree]
  refine after_step (I := CutEnd index staging s) hfs hbefore hafter ?_ ?_ ?_
  · exact settles_run (I := CutEnd index staging s) (settles_of_returns
      (cutEnd_removeOld hafter.1 hmoved.arrived hmoved.left))
  · -- the rename has failed: the old snapshot goes back
    refine settles_run (I := CutEnd index staging s) ?_
    rw [settles_bind, settles_bind, settles_read]
    split
    · next hsome =>
      obtain ⟨previous, hprevious⟩ := Option.isSome_iff_exists.mp hsome
      rw [settles_bind, settles_ignoreError]
      refine settles_of_returns (returns_renameSlot hprevious hfree (by simp) ?_)
      intro u hback
      rw [hprevious] at hold
      refine ⟨hat.trans hback.atSlot, .before (hback.arrived.trans hold) hback.left ?_⟩
      rw [hback.others ⟨.next, index⟩ (by simp) (by simp)]
      exact hnext
    · exact hbefore
  · -- the rename reports a failure and has taken effect: the slot is occupied
    refine settles_run (I := CutEnd index staging s) ?_
    rw [settles_bind, settles_bind, settles_read]
    split
    · rw [settles_bind, settles_ignoreError, renameSlot, settles_bind,
        settles_read, if_neg (by rw [hmoved.arrived]; simp)]
      exact hafter
    · exact hafter

omit [DecidableEq δ] in
/-- **A publication that is cut at a rename** leaves its slot in one of three shapes. -/
theorem cutEnd_publication {staging : SnapshotDirectory}
    (hnext : s.get ⟨.next, index⟩ = some staging) (hold : s.get ⟨.old, index⟩ = none)
    (cut : RenameCut) :
    CutEnd index staging s (Session.after (publishHealthySnapshot env index) cut.faults s) := by
  have hrest : publishHealthySnapshot env index =
      moveDestination index >>= fun _ => moveCandidate index >>= fun _ => removeOld env index := rfl
  by_cases hslot : s.get ⟨.slot, index⟩ = none
  · -- there is no first rename
    have hskip : ∀ fs, (publishHealthySnapshot env index).run fs s =
        (moveCandidate index >>= fun _ => removeOld env index).run fs s := by
      intro fs
      rw [hrest, moveDestination]
      show ((if (s.get ⟨.slot, index⟩).isSome = true then _ else _) >>= _ :
        RingProgram Unit).run fs s = _
      rw [if_neg (by rw [hslot]; simp)]
      rfl
    have hend : ∀ fs, (fs = [] ∨ ∃ fault, fs = [fault]) → CutEnd index staging s
        (Session.after (publishHealthySnapshot env index) fs s) := by
      intro fs hfs
      unfold Session.after
      rw [hskip]
      exact cutEnd_moveCandidate (.refl index s) hslot hnext (hold.trans hslot.symm) hfs
    cases cut with
    | completed => exact hend [] (Or.inl rfl)
    | first fault => exact hend [fault] (Or.inr ⟨fault, rfl⟩)
    | second fault =>
      -- the one rename goes through, and there is nothing to delete
      have hmoved : Moved ⟨.next, index⟩ ⟨.slot, index⟩ staging s
          (s.move ⟨.next, index⟩ ⟨.slot, index⟩) := moved_move (by simp) hnext
      have hgone : (s.move ⟨.next, index⟩ ⟨.slot, index⟩).get ⟨.old, index⟩ = none := by
        rw [hmoved.others ⟨.old, index⟩ (by simp) (by simp)]
        exact hold
      have hlast : (removeOld env index).run [fault] (s.move ⟨.next, index⟩ ⟨.slot, index⟩) =
          (.ok (), s.move ⟨.next, index⟩ ⟨.slot, index⟩) := by
        show (removeIf env ((s.move ⟨.next, index⟩ ⟨.slot, index⟩).get ⟨.old, index⟩).isSome
          ⟨.old, index⟩).run [fault] _ = _
        rw [hgone]
        rfl
      unfold Session.after
      rw [hskip, moveCandidate, run_tryRenameSlot_bind (by rw [hnext]; rfl) hslot]
      show CutEnd index staging s ((removeOld env index).run [fault] _).2
      rw [hlast]
      exact ⟨hmoved.atSlot, .placed hmoved.arrived (Or.inl hgone) hmoved.left⟩
  · -- the slot is occupied: its snapshot is moved aside first
    obtain ⟨previous, hprevious⟩ := Option.ne_none_iff_exists'.mp hslot
    have hsome : (s.get ⟨.slot, index⟩).isSome = true := by rw [hprevious]; rfl
    have hmoved : Moved ⟨.slot, index⟩ ⟨.old, index⟩ previous s
        (s.move ⟨.slot, index⟩ ⟨.old, index⟩) := moved_move (by simp) hprevious
    have hnext' : (s.move ⟨.slot, index⟩ ⟨.old, index⟩).get ⟨.next, index⟩ = some staging := by
      rw [hmoved.others ⟨.next, index⟩ (by simp) (by simp)]
      exact hnext
    have hold' := hmoved.arrived.trans hprevious.symm
    have hbefore : CutEnd index staging s s := ⟨.refl index s, .before rfl hold hnext⟩
    have hbetween : CutEnd index staging s (s.move ⟨.slot, index⟩ ⟨.old, index⟩) :=
      ⟨hmoved.atSlot, .between hsome hmoved.left hold' hnext'⟩
    have hstep : ∀ fs, (publishHealthySnapshot env index).run fs s =
        (Program.step (fun disk : RingDisk => disk.move ⟨.slot, index⟩ ⟨.old, index⟩)
          (moveCandidate index >>= fun _ => removeOld env index)
          (Program.fail (.io "durably move"))).run fs s := by
      intro fs
      rw [hrest, moveDestination, bind_assoc]
      show ((if (s.get ⟨.slot, index⟩).isSome = true then _ else _) >>= _ :
        RingProgram Unit).run fs s = _
      rw [if_pos hsome, run_renameSlot_bind hsome hold]
    have hlast : ∀ fs, (fs = [] ∨ ∃ fault, fs = [fault]) → CutEnd index staging s
        (Session.after (moveCandidate index >>= fun _ => removeOld env index) fs
          (s.move ⟨.slot, index⟩ ⟨.old, index⟩)) := by
      intro fs hfs
      exact cutEnd_moveCandidate hmoved.atSlot hmoved.left hnext' hold' hfs
    have hend : ∀ fs, (fs = [] ∨ ∃ fault, fs = [fault]) → CutEnd index staging s
        (Session.after (publishHealthySnapshot env index) fs s) := by
      intro fs hfs
      unfold Session.after
      rw [hstep]
      exact after_step (I := CutEnd index staging s) hfs hbefore hbetween (hlast [] (Or.inl rfl))
        hbefore hbetween
    cases cut with
    | completed => exact hend [] (Or.inl rfl)
    | first fault => exact hend [fault] (Or.inr ⟨fault, rfl⟩)
    | second fault =>
      unfold Session.after
      rw [hstep]
      exact hlast [fault] (Or.inr ⟨fault, rfl⟩)

/-! ## 2. The recovery after it -/

def NextIntact (env : SnapshotEnvironment δ) (s : RingDisk) : Prop :=
  ∀ i directory, s.get ⟨.next, i⟩ = some directory → IsHealthy env directory

theorem returns_recoverSlot_forward (hpublished : s.published index = none)
    (hnext : ∀ directory, s.get ⟨.next, index⟩ = some directory → IsHealthy env directory) :
    (recoverSlot env index).returns
      (fun _ s' => s'.get ⟨.slot, index⟩ = s.get ⟨.next, index⟩) s := by
  rw [RingDisk.published, Option.or_eq_none_iff] at hpublished
  obtain ⟨hslot, hold⟩ := hpublished
  rw [recoverSlot, returns_bind, returns_read]
  split
  · next hnone => exact hslot.trans hnone.2.symm
  · next hsome =>
    obtain ⟨candidate, hcandidate⟩ := Option.ne_none_iff_exists'.mp fun h => hsome ⟨hold, h⟩
    have hhealthy : validateHealthyCandidate env candidate = .ok () := hnext candidate hcandidate
    have hkept : (quarantineCandidate env index).returns
        (fun isPresent s' => isPresent = true ∧ s' = s) s := by
      rw [quarantineCandidate, returns_bind, returns_read, hcandidate]
      dsimp only
      rw [hhealthy]
      exact ⟨rfl, rfl⟩
    rw [hslot, hold]
    show Program.returns (quarantineCandidate env index >>= _) _ s
    rw [returns_bind]
    refine returns_mono ?_ hkept
    rintro _ _ ⟨rfl, rfl⟩
    refine returns_renameSlot hcandidate hslot (by simp) ?_
    intro s' hmoved
    rw [hmoved.arrived, hcandidate]

/-- What the loop of the recovery keeps of the slots where nothing is published. -/
structure Forwarding (env : SnapshotEnvironment δ) (s : RingDisk) (todo : List Nat)
    (s' : RingDisk) : Prop where
  recovering : Recovering env s todo s'
  ahead : ∀ i ∈ todo, s'.published i = s.published i ∧ s'.get ⟨.next, i⟩ = s.get ⟨.next, i⟩
  done : ∀ i, 1 ≤ i ∧ i ≤ env.healthySlots → i ∉ todo → s.published i = none →
    s'.get ⟨.slot, i⟩ = s.get ⟨.next, i⟩

theorem returns_recoverSlot_forwarding (hold : OldIntact env s) (hnext : NextIntact env s)
    {i : Nat} {todo : List Nat} (h : Forwarding env s (i :: todo) s') :
    (recoverSlot env i).returns (fun _ => Forwarding env s todo) s' := by
  have hinv := h.recovering.recovered.invariant
  obtain ⟨hrange, hsameOld⟩ := h.recovering.ahead i (List.mem_cons_self ..)
  obtain ⟨hpublished, hsameNext⟩ := h.ahead i (List.mem_cons_self ..)
  have hends : (recoverSlot env i).returns (fun _ _ => True) s' := by
    refine returns_recoverSlot hinv ?_
    intro directory hd
    rw [hsameOld] at hd
    exact hold i directory hd
  have hforward : (recoverSlot env i).returns
      (fun _ s'' => s.published i = none → s''.get ⟨.slot, i⟩ = s.get ⟨.next, i⟩) s' := by
    by_cases hnone : s.published i = none
    · refine returns_mono (fun _ s'' hs'' _ => hs''.trans hsameNext)
        (returns_recoverSlot_forward (hpublished.trans hnone) ?_)
      intro directory hd
      rw [hsameNext] at hd
      exact hnext i directory hd
    · exact returns_mono (fun _ _ _ hcontra => absurd hcontra hnone) hends
  have hrecovering := (returns_and_of_wp hends (wp_recoverSlot_recovering h.recovering))
  have hsettled := (returns_and_of_wp hrecovering (wp_recoverSlot hinv hrange))
  refine returns_mono ?_
    (returns_and_settles hforward (settles_of_returns (E := fun _ _ => True)
      hsettled))
  rintro _ s'' ⟨hslot, ⟨-, hrecovered⟩, hat, -⟩
  refine ⟨hrecovered, ?_, ?_⟩
  · intro j hj
    have hne : j ≠ i := by
      rintro rfl
      exact (List.nodup_cons.mp h.recovering.nodup).1 hj
    rw [hat.atSlot.published hne, hat.atSlot.others ⟨.next, j⟩ hne]
    exact h.ahead j (List.mem_cons_of_mem _ hj)
  · intro j hj hmem hnone
    by_cases hji : j = i
    · rw [hji] at hnone ⊢
      exact hslot hnone
    · rw [hat.atSlot.others ⟨.slot, j⟩ hji]
      exact h.done j hj (by simp [hji, hmem]) hnone

/-- **A recovery without faults**: what was published is in its slot, and a slot where nothing was
published has its candidate. -/
theorem returns_recoverOrphanedHealthySlots_forward (h : RingInvariant env s)
    (hold : OldIntact env s) (hnext : NextIntact env s) :
    (recoverOrphanedHealthySlots env).returns (fun _ s' => TidyRing env s' ∧ NoDamage env s' ∧
      ∀ i, s'.get ⟨.slot, i⟩ = (s.published i).or (s.get ⟨.next, i⟩)) s := by
  have hinventory : (validateHealthyInventory env).returns (fun _ s' => s' = s) s :=
    returns_mono (fun _ _ hs => hs.2)
      (returns_and_of_wp (returns_validateHealthyInventory h.shape)
        (readOnly_validateHealthyInventory.wp (Q := fun _ s' => s' = s) (E := fun _ _ => True)
          (C := fun _ => True) (fun _ => rfl) (fun _ => trivial) trivial))
  have hforward : (recoverOrphanedHealthySlots env).returns
      (fun _ => Forwarding env s []) s := by
    rw [recoverOrphanedHealthySlots, returns_bind, returns_read, h.rootStrays]
    show (validateHealthyInventory env >>= _ : RingProgram Unit).returns _ s
    rw [returns_bind]
    refine returns_mono ?_ hinventory
    rintro _ _ rfl
    refine returns_forM (I := Forwarding env _)
      (fun i todo s' hs => returns_recoverSlot_forwarding hold hnext hs) _ _ ⟨.init h, ?_, ?_⟩
    · intro _ _
      exact ⟨rfl, rfl⟩
    · intro i hi hmem
      exact absurd (mem_slotIndices.mpr hi) hmem
  refine returns_mono ?_
    (returns_and_of_wp hforward (wp_recoverOrphanedHealthySlots h))
  rintro _ s' ⟨hdone, hrecovered, horphans, -⟩
  refine ⟨⟨hrecovered.invariant.shape, horphans⟩, hrecovered.invariant.slots, ?_⟩
  intro i
  rcases hpublished : s.published i with _ | directory
  · by_cases hi : 1 ≤ i ∧ i ≤ env.healthySlots
    · exact hdone.done i hi List.not_mem_nil hpublished
    · have hslot : s'.get ⟨.slot, i⟩ = none := by
        rw [← Option.not_isSome_iff_eq_none]
        exact fun hsome => hi (hrecovered.invariant.indices _ hsome)
      have hnone : s.get ⟨.next, i⟩ = none := by
        rw [← Option.not_isSome_iff_eq_none]
        exact fun hsome => hi (h.indices _ hsome)
      rw [hslot, hnone]
      rfl
  · have hkept := hrecovered.published i directory hpublished
    rw [RingDisk.published, (horphans i).1, Option.or_none] at hkept
    exact hkept

/-- What a round does to a ring: the slot that was picked has the snapshot of the capture, or it
is occupied and has its snapshot still. -/
structure RoundEnd (env : SnapshotEnvironment δ) (manifest : SnapshotManifest δ) (index : Nat)
    (s s' : RingDisk) : Prop where
  picked : PickedSlot env s index
  tidy : TidyRing env s'
  noDamage : NoDamage env s'
  others : ∀ j, j ≠ index → s'.get ⟨.slot, j⟩ = s.get ⟨.slot, j⟩
  slot : (∃ directory, s'.get ⟨.slot, index⟩ = some directory ∧ Holds env manifest directory) ∨
    (s.get ⟨.slot, index⟩).isSome = true ∧ s'.get ⟨.slot, index⟩ = s.get ⟨.slot, index⟩

/-- The recovery after a publication that was cut. -/
theorem returns_recover_of_cutEnd {manifest : SnapshotManifest δ} {staging : SnapshotDirectory}
    (h : TidyRing env s) (hdamage : NoDamage env s) (hpicked : PickedSlot env s index)
    (hholds : Holds env manifest staging) (hend : CutEnd index staging s t) :
    (recoverOrphanedHealthySlots env).returns
      (fun _ s' => RoundEnd env manifest index s s' ∧
        (t.get ⟨.slot, index⟩ = some staging → s'.get ⟨.slot, index⟩ = some staging)) t := by
  obtain ⟨hat, hshape⟩ := hend
  have hrange := hpicked.next.range
  have hinvariant : RingInvariant env s := ⟨h.shape.indices, hdamage, h.shape.healthyStrays,
    h.shape.rootStrays⟩
  have hslot : ∀ directory, t.get ⟨.slot, index⟩ = some directory → IsHealthy env directory := by
    intro directory hd
    cases hshape with
    | before hslot hold hnext =>
      rw [hslot] at hd
      exact hdamage index directory hd
    | between hoccupied hslot hold hnext =>
      rw [hslot] at hd
      cases hd
    | placed hslot hold hnext =>
      rw [hslot] at hd
      rw [← Option.some.inj hd]
      exact hholds.isHealthy
  have hold : OldIntact env t := by
    intro i directory hd
    by_cases hi : i = index
    · rw [hi] at hd
      cases hshape with
      | before hslot hold hnext =>
        rw [hold] at hd
        cases hd
      | between hoccupied hslot hold hnext =>
        rw [hold] at hd
        exact hdamage index directory hd
      | placed hslot hold hnext =>
        rcases hold with hold | hold
        · rw [hold] at hd
          cases hd
        · rw [hold] at hd
          exact hdamage index directory hd
    · rw [hat.others ⟨.old, i⟩ hi, (h.orphans i).1] at hd
      cases hd
  have hnext : NextIntact env t := by
    intro i directory hd
    by_cases hi : i = index
    · rw [hi] at hd
      cases hshape with
      | before hslot hold hnext =>
        rw [hnext] at hd
        rw [← Option.some.inj hd]
        exact hholds.isHealthy
      | between hoccupied hslot hold hnext =>
        rw [hnext] at hd
        rw [← Option.some.inj hd]
        exact hholds.isHealthy
      | placed hslot hold hnext =>
        rw [hnext] at hd
        cases hd
    · rw [hat.others ⟨.next, i⟩ hi, (h.orphans i).2] at hd
      cases hd
  refine returns_mono ?_ (returns_recoverOrphanedHealthySlots_forward
    (hinvariant.atSlot hrange hat hslot) hold hnext)
  rintro _ s' ⟨htidy, hdamage', hslots⟩
  refine ⟨⟨hpicked, htidy, hdamage', ?_, ?_⟩, ?_⟩
  · intro j hj
    rw [hslots j, hat.published hj, hat.others ⟨.next, j⟩ hj, RingDisk.published,
      (h.orphans j).1, (h.orphans j).2, Option.or_none, Option.or_none]
  · have hindex := hslots index
    rw [RingDisk.published] at hindex
    cases hshape with
    | before hslot hold hnext =>
      rw [hslot, hold, hnext, Option.or_none] at hindex
      rcases hs : s.get ⟨.slot, index⟩ with _ | previous
      · rw [hs] at hindex
        exact Or.inl ⟨staging, hindex, hholds⟩
      · rw [hs] at hindex
        exact Or.inr ⟨rfl, hindex⟩
    | between hoccupied hslot hold hnext =>
      obtain ⟨previous, hprevious⟩ := Option.isSome_iff_exists.mp hoccupied
      rw [hslot, hold, hprevious] at hindex
      exact Or.inr ⟨hoccupied, hindex.trans hprevious.symm⟩
    | placed hslot hold hnext =>
      rw [hslot] at hindex
      exact Or.inl ⟨staging, hindex, hholds⟩
  · intro hplaced
    rw [hslots index, RingDisk.published, hplaced]
    rfl

/-- **A round.**  The capture is completed or cut at a rename, and the recovery after it goes
through. -/
theorem roundEnd_ringRound (hslots : 1 ≤ env.healthySlots) (h : TidyRing env s)
    (hdamage : NoDamage env s) {round : CaptureInput × RenameCut} (hin : Capturable env round.1) :
    ∃ manifest : SnapshotManifest δ, ∃ index, manifest.snapshotId = round.1.snapshotId ∧
      manifest.createdUnixMs = round.1.createdUnixMs ∧
      RoundEnd env manifest index s (ringRound env s round) ∧
      ((recoverOrphanedHealthySlots env).run [] (cutCapture env round s)).1 = .ok () ∧
      (round.2 = .completed → ∃ directory,
        (ringRound env s round).get ⟨.slot, index⟩ = some directory ∧
          Holds env manifest directory) := by
  obtain ⟨⟨index, manifest⟩, t, hrun, hprepared⟩ := (returns_iff_run _ _ _).mp
    (returns_prepareHealthy hslots h hdamage hin)
  obtain ⟨staging, hstaging, hholds⟩ := hprepared.candidate
  have hpicked : PickedSlot env s index := hprepared.picked
  have honly : Only ⟨.next, index⟩ s t := hprepared.only
  have hslot : t.get ⟨.slot, index⟩ = s.get ⟨.slot, index⟩ :=
    honly.others ⟨.slot, index⟩ (by simp)
  have hold : t.get ⟨.old, index⟩ = none := by
    rw [honly.others ⟨.old, index⟩ (by simp)]
    exact (h.orphans index).1
  have hcut : cutCapture env round s =
      Session.after (publishHealthySnapshot env index) round.2.faults t := by
    have hmap : (do
        publishHealthySnapshot env index
        pure manifest : RingProgram (SnapshotManifest δ)) =
          (fun _ => manifest) <$> publishHealthySnapshot env index := by
      rw [map_eq_pure_bind]
    rw [cutCapture, Session.after, captureHealthy_eq_prepare, RenameCut.captureFaults,
      run_bind_replicate _ hrun]
    show (Program.run (do
      publishHealthySnapshot env index
      pure manifest) _ t).2 = _
    rw [hmap]
    exact Session.after_map _ _ _ _
  have hend : CutEnd index staging s (cutCapture env round s) := by
    rw [hcut]
    have hpublication : CutEnd index staging t
        (Session.after (publishHealthySnapshot env index) round.2.faults t) :=
      cutEnd_publication hstaging hold round.2
    obtain ⟨hat, hshape⟩ := hpublication
    refine ⟨honly.atSlot.trans hat, ?_⟩
    rcases hshape with ⟨hslot', hold', hnext'⟩ | ⟨hsome, hslot', hold', hnext'⟩ |
      ⟨hslot', hold', hnext'⟩
    · exact .before (hslot'.trans hslot) hold' hnext'
    · exact .between (by rwa [hslot] at hsome) hslot' (hold'.trans hslot) hnext'
    · exact .placed hslot' (hold'.imp_right fun heq => heq.trans hslot) hnext'
  obtain ⟨_, s', hrecover, hround, hreached⟩ := (returns_iff_run _ _ _).mp
    (returns_recover_of_cutEnd h hdamage hpicked hholds hend)
  have hafter : ringRound env s round = s' := by
    rw [ringRound, Session.after, hrecover]
  rw [hafter]
  refine ⟨manifest, index, hprepared.snapshotId, hprepared.createdUnixMs, hround, ?_, ?_⟩
  · rw [hrecover]
  · intro hcompleted
    obtain ⟨_, u, hpublish, -, hplaced, -⟩ :=
      (returns_iff_run (publishHealthySnapshot env index) _ _).mp
        (returns_publishHealthySnapshot hstaging hold)
    have hcutPlaced : (cutCapture env round s).get ⟨.slot, index⟩ = some staging := by
      rw [hcut, hcompleted]
      show (Session.after (publishHealthySnapshot env index) [] t).get _ = _
      rw [Session.after, hpublish]
      exact hplaced
    exact ⟨staging, hreached hcutPlaced, hholds⟩

/-! ## 3. What the ring holds -/

/-- A snapshot, by its identifier and the time of its creation. -/
abbrev SnapshotStamp : Type := String × Nat

def snapshotAt (env : SnapshotEnvironment δ) (s : RingDisk) (index : Nat) : Option SnapshotStamp :=
  (s.get ⟨.slot, index⟩).bind fun directory =>
    (loadValidSnapshot env directory).toOption.map fun manifest =>
      (manifest.snapshotId, manifest.createdUnixMs)

def ringSnapshots (env : SnapshotEnvironment δ) (s : RingDisk) : List SnapshotStamp :=
  (slotIndices env).filterMap (snapshotAt env s)

def CaptureInput.stamp (input : CaptureInput) : SnapshotStamp :=
  (input.snapshotId, input.createdUnixMs)

/-- The snapshots of the rounds whose publication has reached its slot, oldest first. -/
def publishedRounds (env : SnapshotEnvironment δ) :
    RingDisk → List (CaptureInput × RenameCut) → List SnapshotStamp
  | _, [] => []
  | s, round :: rounds =>
      (if round.1.stamp ∈ ringSnapshots env (ringRound env s round) then [round.1.stamp] else []) ++
        publishedRounds env (ringRound env s round) rounds

/-- The newest of a list that is in order, as many as the ring has slots. -/
def newest (env : SnapshotEnvironment δ) (published : List SnapshotStamp) : List SnapshotStamp :=
  published.drop (published.length - env.healthySlots)

theorem snapshotAt_of_holds {manifest : SnapshotManifest δ} {directory : SnapshotDirectory}
    (hslot : s.get ⟨.slot, index⟩ = some directory) (hholds : Holds env manifest directory) :
    snapshotAt env s index = some (manifest.snapshotId, manifest.createdUnixMs) := by
  rw [snapshotAt, hslot, Option.bind_some, hholds.1]
  rfl

theorem snapshotAt_of_noDamage (hdamage : NoDamage env s)
    (h : (s.get ⟨.slot, index⟩).isSome = true) :
    ∃ stamp, snapshotAt env s index = some stamp ∧ createdAt env s index = stamp.2 := by
  obtain ⟨directory, hslot⟩ := Option.isSome_iff_exists.mp h
  obtain ⟨manifest, hload, hkind⟩ := exists_of_isHealthy env (hdamage index directory hslot)
  refine ⟨_, snapshotAt_of_holds hslot ⟨hload, hkind⟩, ?_⟩
  rw [createdAt_some hslot, createdUnixMs, readManifestBounded_of_loadValidSnapshot hload]

theorem snapshotAt_of_free (h : s.get ⟨.slot, index⟩ = none) : snapshotAt env s index = none := by
  rw [snapshotAt, h]
  rfl

theorem ringSnapshots_split (hindex : 1 ≤ index ∧ index ≤ env.healthySlots)
    (hothers : ∀ j, j ≠ index → s'.get ⟨.slot, j⟩ = s.get ⟨.slot, j⟩) :
    ∃ others : List SnapshotStamp, others.length < env.healthySlots ∧
      (ringSnapshots env s).Perm ((snapshotAt env s index).toList ++ others) ∧
      (ringSnapshots env s').Perm ((snapshotAt env s' index).toList ++ others) := by
  obtain ⟨before, after, hsplit⟩ := List.append_of_mem (mem_slotIndices.mpr hindex)
  have hnodup : (slotIndices env).Nodup := List.nodup_range'
  rw [hsplit, List.nodup_append, List.nodup_cons] at hnodup
  have hne : ∀ j, j ∈ before ++ after → j ≠ index := by
    rintro j hj rfl
    rcases List.mem_append.mp hj with hj | hj
    · exact hnodup.2.2 j hj j (List.mem_cons_self ..) rfl
    · exact hnodup.2.1.1 hj
  have hsame : ∀ j ∈ before ++ after, snapshotAt env s' j = snapshotAt env s j := by
    intro j hj
    rw [snapshotAt, snapshotAt, hothers j (hne j hj)]
  have hmiddle : ∀ u : RingDisk, (ringSnapshots env u).Perm
      ((snapshotAt env u index).toList ++ (before ++ after).filterMap (snapshotAt env u)) := by
    intro u
    rw [ringSnapshots, hsplit, List.filterMap_append, List.filterMap_append, List.filterMap_cons]
    cases snapshotAt env u index with
    | none => exact List.Perm.refl _
    | some stamp => exact List.perm_middle
  refine ⟨(before ++ after).filterMap (snapshotAt env s), ?_, hmiddle s, ?_⟩
  · have hle := List.length_filterMap_le (snapshotAt env s) (before ++ after)
    have hlength : (slotIndices env).length = env.healthySlots := List.length_range' ..
    rw [hsplit, List.length_append, List.length_cons] at hlength
    rw [List.length_append] at hle
    omega
  · rw [← List.filterMap_congr hsame]
    exact hmiddle s'

theorem length_ringSnapshots_of_full (hdamage : NoDamage env s)
    (hfull : ∀ j, 1 ≤ j ∧ j ≤ env.healthySlots → (s.get ⟨.slot, j⟩).isSome = true) :
    (ringSnapshots env s).length = env.healthySlots := by
  have hall : ∀ j ∈ slotIndices env, (snapshotAt env s j).isSome = true := by
    intro j hj
    obtain ⟨stamp, hstamp, -⟩ := snapshotAt_of_noDamage hdamage (hfull j (mem_slotIndices.mp hj))
    rw [hstamp]
    rfl
  rw [ringSnapshots, List.filterMap_length_eq_length.mpr hall, slotIndices, List.length_range']

theorem eq_head_of_oldest {oldest first : SnapshotStamp} {rest : List SnapshotStamp}
    (hsorted : (first :: rest).Pairwise fun a b => a.2 < b.2) (hmem : oldest ∈ first :: rest)
    (hle : oldest.2 ≤ first.2) : oldest = first := by
  rcases List.mem_cons.mp hmem with heq | hrest
  · exact heq
  · have hlt := (List.pairwise_cons.mp hsorted).1 oldest hrest
    omega

omit [DecidableEq δ] in
theorem length_newest (published : List SnapshotStamp) :
    (newest env published).length = min published.length env.healthySlots := by
  rw [newest, List.length_drop]
  omega

/-- **The step lemma.**  A round keeps the newest in the ring: its snapshot has come in and the
oldest has gone, if there was no free slot, or the ring is as it was. -/
theorem newest_of_roundEnd {manifest : SnapshotManifest δ} {published : List SnapshotStamp}
    (hdamage : NoDamage env s) (hround : RoundEnd env manifest index s s')
    (hsorted : published.Pairwise fun a b => a.2 < b.2)
    (h : (ringSnapshots env s).Perm (newest env published)) :
    (∃ directory, s'.get ⟨.slot, index⟩ = some directory ∧ Holds env manifest directory) ∧
        (ringSnapshots env s').Perm
          (newest env (published ++ [(manifest.snapshotId, manifest.createdUnixMs)])) ∨
      ringSnapshots env s' = ringSnapshots env s := by
  obtain ⟨others, hfewer, hbefore, hafter⟩ :=
    ringSnapshots_split hround.picked.next.range hround.others
  rcases hround.slot with ⟨directory, hslot, hholds⟩ | ⟨hoccupied, hslot⟩
  · refine Or.inl ⟨⟨directory, hslot, hholds⟩, ?_⟩
    rw [snapshotAt_of_holds hslot hholds] at hafter
    generalize (manifest.snapshotId, manifest.createdUnixMs) = stamp at hafter ⊢
    have hlengths := h.length_eq
    rw [length_newest] at hlengths
    by_cases hfree : s.get ⟨.slot, index⟩ = none
    · -- a free slot: nothing goes
      rw [snapshotAt_of_free hfree] at hbefore
      have hfew : published.length < env.healthySlots := by
        have hcount := hbefore.length_eq
        simp only [Option.toList_none, List.nil_append] at hcount
        omega
      have hall : newest env published = published := by
        rw [newest, Nat.sub_eq_zero_of_le (le_of_lt hfew), List.drop_zero]
      have hallNew : newest env (published ++ [stamp]) = published ++ [stamp] := by
        rw [newest, List.length_append, List.length_singleton, Nat.sub_eq_zero_of_le hfew,
          List.drop_zero]
      rw [hall] at h
      rw [hallNew]
      have hothers : others.Perm published := hbefore.symm.trans h
      exact hafter.trans ((hothers.cons stamp).trans (List.perm_append_singleton stamp published).symm)
    · -- a full ring: the oldest goes
      have hfull := hround.picked.free_or_full.resolve_left hfree
      have holdest := hround.picked.next.oldest.resolve_left hfree
      obtain ⟨oldest, hstamp, hcreated⟩ :=
        snapshotAt_of_noDamage hdamage (Option.isSome_iff_ne_none.mpr hfree)
      rw [hstamp] at hbefore
      have hmany := length_ringSnapshots_of_full hdamage hfull
      have hcount := hbefore.length_eq
      have hle : env.healthySlots ≤ published.length := by omega
      obtain ⟨first, rest, hnewest⟩ : ∃ first rest, newest env published = first :: rest := by
        refine List.exists_cons_of_ne_nil ?_
        intro hnil
        have hzero : (newest env published).length = _ := length_newest published
        rw [hnil, List.length_nil] at hzero
        omega
      have hsorted' : (first :: rest).Pairwise fun a b => a.2 < b.2 := by
        rw [← hnewest]
        exact hsorted.sublist (List.drop_sublist _ _)
      have hmem : oldest ∈ first :: rest := by
        rw [← hnewest]
        exact h.mem_iff.mp (hbefore.mem_iff.mpr (List.mem_cons_self ..))
      have hleast : oldest.2 ≤ first.2 := by
        have hfirst : first ∈ ringSnapshots env s := by
          rw [h.mem_iff, hnewest]
          exact List.mem_cons_self ..
        obtain ⟨j, hj, hat⟩ := List.mem_filterMap.mp hfirst
        obtain ⟨other, hother, hcreatedOther⟩ :=
          snapshotAt_of_noDamage hdamage (hfull j (mem_slotIndices.mp hj))
        rw [hat] at hother
        rw [Option.some.inj hother, ← hcreated, ← hcreatedOther]
        exact holdest j (mem_slotIndices.mp hj)
      obtain rfl := eq_head_of_oldest hsorted' hmem hleast
      have hothers : others.Perm rest := by
        rw [hnewest] at h
        exact (hbefore.symm.trans h).cons_inv
      have hdrop : newest env (published ++ [stamp]) = rest ++ [stamp] := by
        have hrest : published.drop (published.length - env.healthySlots + 1) = rest := by
          rw [← List.drop_drop]
          rw [newest] at hnewest
          rw [hnewest]
          rfl
        have hshift : published.length + 1 - env.healthySlots =
            published.length - env.healthySlots + 1 := by omega
        rw [newest, List.length_append, List.length_singleton, hshift,
          List.drop_append_of_le_length (by omega), hrest]
      rw [hdrop]
      exact hafter.trans ((hothers.cons stamp).trans (List.perm_append_singleton stamp rest).symm)
  · refine Or.inr ?_
    refine List.filterMap_congr ?_
    intro j _
    by_cases hj : j = index
    · rw [snapshotAt, snapshotAt, hj, hslot]
    · rw [snapshotAt, snapshotAt, hround.others j hj]

structure Keeps (env : SnapshotEnvironment δ) (published : List SnapshotStamp) (s : RingDisk) :
    Prop where
  tidy : TidyRing env s
  noDamage : NoDamage env s
  sorted : published.Pairwise fun a b => a.2 < b.2
  holds : (ringSnapshots env s).Perm (newest env published)

theorem Keeps.ringRound (hslots : 1 ≤ env.healthySlots) {published : List SnapshotStamp}
    (h : Keeps env published s) {round : CaptureInput × RenameCut} (hin : Capturable env round.1)
    (hlater : ∀ stamp ∈ published, stamp.2 < round.1.createdUnixMs) :
    Keeps env (published ++
        if round.1.stamp ∈ ringSnapshots env (ringRound env s round) then [round.1.stamp] else [])
      (ringRound env s round) ∧
      ((recoverOrphanedHealthySlots env).run [] (cutCapture env round s)).1 = .ok () ∧
      (round.2 = .completed →
        round.1.stamp ∈ ringSnapshots env (Snapshot.ringRound env s round)) := by
  obtain ⟨manifest, index, hid, hcreated, hround, hrecovers, hcompleted⟩ :=
    roundEnd_ringRound hslots h.tidy h.noDamage hin
  have hstamp : (manifest.snapshotId, manifest.createdUnixMs) = round.1.stamp := by
    rw [hid, hcreated]
    rfl
  have hholding : (∃ directory, (Snapshot.ringRound env s round).get ⟨.slot, index⟩ =
      some directory ∧ Holds env manifest directory) →
      round.1.stamp ∈ ringSnapshots env (Snapshot.ringRound env s round) := by
    rintro ⟨directory, hslot, hholds⟩
    refine List.mem_filterMap.mpr ⟨index, mem_slotIndices.mpr hround.picked.next.range, ?_⟩
    rw [snapshotAt_of_holds hslot hholds, hstamp]
  refine ⟨?_, hrecovers, fun h => hholding (hcompleted h)⟩
  rcases newest_of_roundEnd h.noDamage hround h.sorted h.holds with ⟨hplaced, hnewest⟩ | hsame
  · rw [if_pos (hholding hplaced)]
    rw [hstamp] at hnewest
    refine ⟨hround.tidy, hround.noDamage, ?_, hnewest⟩
    rw [List.pairwise_append]
    refine ⟨h.sorted, List.pairwise_singleton _ _, ?_⟩
    intro stamp hmem last hlast
    rw [List.mem_singleton.mp hlast]
    exact hlater stamp hmem
  · -- the ring is as it was, and its snapshots are older than the one of the capture
    have habsent : round.1.stamp ∉ ringSnapshots env (Snapshot.ringRound env s round) := by
      rw [hsame, h.holds.mem_iff]
      intro hmem
      exact absurd (hlater _ (List.mem_of_mem_drop hmem)) (lt_irrefl _)
    rw [if_neg habsent, List.append_nil]
    refine ⟨hround.tidy, hround.noDamage, h.sorted, ?_⟩
    rw [hsame]
    exact h.holds

/-- The captures of a list of rounds come one after another. -/
def InOrder (rounds : List (CaptureInput × RenameCut)) : Prop :=
  (rounds.map fun round => round.1.createdUnixMs).Pairwise (· < ·)

theorem Keeps.ringRounds (hslots : 1 ≤ env.healthySlots) {rounds : List (CaptureInput × RenameCut)}
    (hin : ∀ round ∈ rounds, Capturable env round.1) (horder : InOrder rounds) :
    ∀ {published : List SnapshotStamp} {s : RingDisk}, Keeps env published s →
      (∀ stamp ∈ published, ∀ round ∈ rounds, stamp.2 < round.1.createdUnixMs) →
      Keeps env (published ++ publishedRounds env s rounds) (ringRounds env s rounds) := by
  induction rounds with
  | nil =>
    intro published s h _
    rw [publishedRounds, List.append_nil]
    exact h
  | cons round rounds ih =>
    intro published s h hlater
    obtain ⟨hfirst, horder⟩ := List.pairwise_cons.mp horder
    obtain ⟨hnext, -, -⟩ := h.ringRound hslots (hin round (List.mem_cons_self ..))
      fun stamp hstamp => hlater stamp hstamp round (List.mem_cons_self ..)
    have hrest := ih (fun other hother => hin other (List.mem_cons_of_mem _ hother)) horder hnext ?_
    · rw [publishedRounds, ← List.append_assoc]
      exact hrest
    · intro stamp hstamp other hother
      rcases List.mem_append.mp hstamp with hold | hnew
      · exact hlater stamp hold other (List.mem_cons_of_mem _ hother)
      · split at hnew
        · rw [List.mem_singleton.mp hnew]
          exact hfirst _ (List.mem_map_of_mem hother)
        · cases hnew

theorem publishedRounds_append (s : RingDisk) (rounds later : List (CaptureInput × RenameCut)) :
    publishedRounds env s (rounds ++ later) =
      publishedRounds env s rounds ++ publishedRounds env (ringRounds env s rounds) later := by
  induction rounds generalizing s with
  | nil => rfl
  | cons round rounds ih =>
    rw [List.cons_append, publishedRounds, publishedRounds, ih, List.append_assoc]
    rfl

theorem mem_publishedRounds {stamp : SnapshotStamp} {rounds : List (CaptureInput × RenameCut)} :
    ∀ {s : RingDisk}, stamp ∈ publishedRounds env s rounds →
      ∃ round ∈ rounds, stamp = round.1.stamp := by
  induction rounds with
  | nil =>
    intro s h
    cases h
  | cons round rounds ih =>
    intro s h
    rcases List.mem_append.mp h with hfirst | hrest
    · split at hfirst
      · exact ⟨round, List.mem_cons_self .., List.mem_singleton.mp hfirst⟩
      · cases hfirst
    · obtain ⟨other, hother, hstamp⟩ := ih hrest
      exact ⟨other, List.mem_cons_of_mem _ hother, hstamp⟩

theorem keeps_of_empty (h : TidyRing env s) (hempty : ∀ i, s.get ⟨.slot, i⟩ = none) :
    Keeps env [] s := by
  refine ⟨h, ?_, List.Pairwise.nil, ?_⟩
  · intro i directory hslot
    rw [hempty i] at hslot
    cases hslot
  · have hnone : ringSnapshots env s = [] := by
      refine List.filterMap_eq_nil_iff.mpr ?_
      intro i _
      exact snapshotAt_of_free (hempty i)
    rw [hnone, newest, List.drop_nil]

end Newest

/-- The first capture of a ring of one slot, cut when its candidate has reached the slot. -/
def firstCaptureCut : List (CaptureInput × RenameCut) := [(packageInput "healthy-1", .first .crashAfter)]

end DshNexus.Snapshot
