import DshNexus.Snapshot.RingRecovery

/-!
# Sessions of healthy captures

A capture replaces at most one published snapshot, wherever it is cut off:
`wp_captureHealthy`.  `healthy_ring_survives` puts the captures and the recoveries of a
session together.  The recovery after a session succeeds exactly when every old snapshot
that is still there is complete, that is, when no call of the session was cut off inside the
recursive deletion of one.
-/

namespace DshNexus.Snapshot

open Durable Program

section Capture

variable {δ : Type} [DecidableEq δ] {env : SnapshotEnvironment δ} {index : Nat}
  {s s' s'' : RingDisk}

/-! ## Filling the staging directory -/

omit [DecidableEq δ] in
theorem within_modify (name : SlotName) (e : SnapshotError)
    (f : SnapshotDirectory → SnapshotDirectory) :
    (Program.durable e fun disk : RingDisk => disk.modify name f).Within (Only name) :=
  within_durable (.refl name) fun s => .modify s f

theorem within_writeBlob (name : SlotName) (i : FileIndex) (bytes : Bytes) :
    (writeBlob name i bytes).Within (Only name) := by
  refine Program.Within.bind (R := Only name) Only.trans (within_modify name _ _) fun _ => ?_
  refine Program.Within.tryCatch (R := Only name) Only.trans ?_ fun e => ?_
  · exact Program.Within.bind (R := Only name) Only.trans (within_modify name _ _)
      fun _ => within_modify name _ _
  · exact Program.Within.bind (R := Only name) Only.trans
      (Program.Within.ignoreError (within_modify name _ _))
      fun _ => Program.ReadOnly.within (R := Only name) (.refl name) (readOnly_throw e)

omit [DecidableEq δ] in
theorem within_fillStaging (name : SlotName) (input : CaptureInput) :
    (fillStaging env name input).Within (Only name) := by
  have hread : ∀ {β : Type} (p : RingProgram β), p.ReadOnly → p.Within (Only name) :=
    fun p hp => Program.ReadOnly.within (R := Only name) (.refl name) hp
  refine Program.Within.bind (R := Only name) Only.trans (within_modify name _ _) fun _ => ?_
  refine Program.Within.bind (R := Only name) Only.trans
    (hread _ (readOnly_ofExcept _)) fun files => ?_
  refine Program.Within.bind (R := Only name) Only.trans
    (hread _ (readOnly_ofExcept _)) fun encoded => ?_
  refine Program.Within.bind (R := Only name) Only.trans
    (hread _ (readOnly_attempt _)) fun _ => ?_
  refine Program.Within.bind (R := Only name) Only.trans
    (within_forM (R := Only name) (.refl name) Only.trans
      (fun payload : FileIndex × Bytes => within_writeBlob name payload.1 payload.2) _) fun _ => ?_
  refine Program.Within.bind (R := Only name) Only.trans
    (hread _ (readOnly_attempt _)) fun _ => ?_
  refine Program.Within.bind (R := Only name) Only.trans (within_modify name _ _) fun _ => ?_
  refine Program.Within.bind (R := Only name) Only.trans
    (hread _ (readOnly_attempt _)) fun _ => ?_
  exact hread _ (readOnly_pure _)

/-! ## Publication -/

/-- The directory is a healthy snapshot with the identifier. -/
def IsSnapshot (env : SnapshotEnvironment δ) (snapshotId : String)
    (directory : SnapshotDirectory) : Prop :=
  IsHealthy env directory ∧
    ∃ manifest, loadValidSnapshot env directory = .ok manifest ∧ manifest.snapshotId = snapshotId

theorem wp_checkPublication {Q : Unit → RingDisk → Prop} {E : SnapshotError → RingDisk → Prop}
    {C : RingDisk → Prop} {snapshotId : String}
    (hQ : ∀ staging, s.get ⟨.next, index⟩ = some staging → IsSnapshot env snapshotId staging →
      s.get ⟨.old, index⟩ = none → Q () s)
    (hE : ∀ e, E e s) (hC : C s) : (checkPublication env index snapshotId).wp Q E C s := by
  have hprevious : ∀ previous, (checkPrevious env previous).ReadOnly := by
    rintro (_ | previous)
    · exact readOnly_pure _
    · refine (readOnly_ofExcept _).bind fun manifest => ?_
      split
      · exact readOnly_throw _
      · exact readOnly_pure _
  rw [checkPublication, wp_bind, wp_read]
  split
  · exact hE _
  · next staging hstaging =>
    rw [wp_bind, wp_ofExcept]
    refine ⟨fun candidate hcandidate => ?_, fun e _ => hE e⟩
    split
    · exact hE _
    · next hidentity =>
      rw [not_or, not_not, not_not] at hidentity
      split
      · exact hE _
      · next hold =>
        rw [Option.not_isSome_iff_eq_none] at hold
        have hsnapshot : IsSnapshot env snapshotId staging :=
          ⟨isHealthy_of_loadValidSnapshot env hcandidate hidentity.2, candidate, hcandidate,
            hidentity.1⟩
        exact (hprevious _).wp (fun _ => hQ staging hstaging hsnapshot hold) hE hC

/-- The work of a capture on its slot: the invariant is kept, and a published snapshot stays
or is replaced by the one of the capture. -/
structure Replaced (env : SnapshotEnvironment δ) (snapshotId : String) (index : Nat)
    (s s' : RingDisk) : Prop where
  invariant : RingInvariant env s'
  atSlot : AtSlot index s s'
  published : ∀ directory, s.published index = some directory →
    s'.published index = some directory ∨
      ∃ new, s'.published index = some new ∧ IsSnapshot env snapshotId new

theorem Settled.replaced (h : Settled env index s s') (snapshotId : String) :
    Replaced env snapshotId index s s' :=
  ⟨h.invariant, h.atSlot, fun d hd => Or.inl (h.published d hd)⟩

theorem Replaced.settled {snapshotId : String} (h : Replaced env snapshotId index s s')
    (h' : Settled env index s' s'') : Replaced env snapshotId index s s'' := by
  refine ⟨h'.invariant, h.atSlot.trans h'.atSlot, fun d hd => ?_⟩
  rcases h.published d hd with hp | ⟨new, hp, hnew⟩
  · exact Or.inl (h'.published d hp)
  · exact Or.inr ⟨new, h'.published new hp, hnew⟩

/-- The state of a publication before the candidate moves: the slot is free, and what was
published there is under its old name. -/
structure Ready (env : SnapshotEnvironment δ) (snapshotId : String) (index : Nat)
    (s s' : RingDisk) : Prop where
  settled : Settled env index s s'
  free : s'.get ⟨.slot, index⟩ = none
  candidate : ∃ staging, s'.get ⟨.next, index⟩ = some staging ∧ IsSnapshot env snapshotId staging
  old : ∀ directory, s'.get ⟨.old, index⟩ = some directory → IsHealthy env directory

theorem wp_moveDestination {snapshotId : String} (h : RingInvariant env s)
    (hindex : 1 ≤ index ∧ index ≤ env.healthySlots) {staging : SnapshotDirectory}
    (hstaging : s.get ⟨.next, index⟩ = some staging) (hsnapshot : IsSnapshot env snapshotId staging)
    (hold : s.get ⟨.old, index⟩ = none) :
    (moveDestination index).wp (fun _ => Ready env snapshotId index s)
      (fun _ => Settled env index s) (Settled env index s) s := by
  have hstay : Settled env index s s := .refl h index
  rw [moveDestination, wp_bind, wp_read]
  split
  · refine wp_renameSlot (by simp) hstay (fun _ => hstay)
      fun directory s₁ hsource _ hmoved => ?_
    have hfree : ∀ d, s₁.get ⟨.slot, index⟩ = some d → IsHealthy env d := fun d hd => by
      rw [hmoved.left] at hd
      cases hd
    have hsettled : Settled env index s s₁ :=
      ⟨h.atSlot hindex hmoved.atSlot hfree, hmoved.atSlot, fun d hd => by
        rw [RingDisk.published, hsource] at hd
        rw [RingDisk.published, hmoved.left, hmoved.arrived]
        exact hd⟩
    refine ⟨hsettled, fun _ => hsettled, hsettled, hmoved.left, ⟨staging, ?_, hsnapshot⟩,
      fun d hd => ?_⟩
    · rw [hmoved.others ⟨.next, index⟩ (by simp) (by simp)]
      exact hstaging
    · rw [hmoved.arrived] at hd
      rw [← Option.some.inj hd]
      exact h.slots index directory hsource
  · next hfree =>
    rw [Option.not_isSome_iff_eq_none] at hfree
    refine ⟨hstay, hfree, ⟨staging, hstaging, hsnapshot⟩, fun d hd => ?_⟩
    rw [hold] at hd
    cases hd

def Placed (env : SnapshotEnvironment δ) (snapshotId : String) (index : Nat)
    (s s' : RingDisk) : Prop :=
  Replaced env snapshotId index s s' ∧ (s'.get ⟨.slot, index⟩).isSome = true

theorem wp_moveCandidate {snapshotId : String}
    (hindex : 1 ≤ index ∧ index ≤ env.healthySlots) (h : Ready env snapshotId index s s') :
    (moveCandidate index).wp (fun _ => Placed env snapshotId index s)
      (fun _ => Replaced env snapshotId index s) (Replaced env snapshotId index s) s' := by
  obtain ⟨staging, hstaging, hsnapshot⟩ := h.candidate
  have hstay := h.settled.replaced snapshotId
  -- when the rename reports an error, the old snapshot goes back if the slot is free
  have hback : ∀ e t, Replaced env snapshotId index s t →
      (∀ d, t.get ⟨.slot, index⟩ = none → t.get ⟨.old, index⟩ = some d → IsHealthy env d) →
      Program.wp (do
        let disk ← Program.read
        if (disk.get ⟨.old, index⟩).isSome = true then do
          Program.ignoreError (renameSlot ⟨.old, index⟩ ⟨.slot, index⟩)
          throw e
        else throw e : RingProgram Unit) (fun _ => Placed env snapshotId index s)
        (fun _ => Replaced env snapshotId index s) (Replaced env snapshotId index s) t := by
    intro e t ht hhealthy
    rw [wp_bind, wp_read]
    split
    · rw [wp_bind, wp_ignoreError]
      refine wp_renameSlot (by simp) ht (fun _ => ht) fun d t' hsource hfree hmoved => ?_
      have hnext : Replaced env snapshotId index s t' := ht.settled
        (.of_moved ht.invariant hindex hmoved (hhealthy d hfree hsource) fun d' hp => by
          rw [RingDisk.published, hfree, hsource] at hp
          exact (Option.some.inj hp).symm)
      exact ⟨hnext, fun _ => hnext, hnext⟩
    · exact ht
  rw [moveCandidate, wp_tryCatch]
  refine wp_renameSlot (by simp) hstay (fun e => hback e s' hstay fun d _ hd => h.old d hd)
    fun directory t hsource _ hmoved => ?_
  rw [hstaging] at hsource
  obtain rfl := Option.some.inj hsource
  have hplaced : Replaced env snapshotId index s t := by
    refine ⟨h.settled.invariant.atSlot hindex hmoved.atSlot fun d hd => ?_,
      h.settled.atSlot.trans hmoved.atSlot, fun d _ => Or.inr ⟨staging, ?_, hsnapshot⟩⟩
    · rw [hmoved.arrived] at hd
      rw [← Option.some.inj hd]
      exact hsnapshot.1
    · rw [RingDisk.published, hmoved.arrived]
      rfl
  refine ⟨hplaced, fun e => hback e t hplaced fun d hfree _ => ?_, hplaced, ?_⟩
  · rw [hmoved.arrived] at hfree
    cases hfree
  · rw [hmoved.arrived]
    rfl

/-- **A publication replaces one snapshot**, or none. -/
theorem wp_publishHealthySnapshot {snapshotId : String} (h : RingInvariant env s)
    (hindex : 1 ≤ index ∧ index ≤ env.healthySlots) {staging : SnapshotDirectory}
    (hstaging : s.get ⟨.next, index⟩ = some staging) (hsnapshot : IsSnapshot env snapshotId staging)
    (hold : s.get ⟨.old, index⟩ = none) :
    (publishHealthySnapshot env index).wp (fun _ => Replaced env snapshotId index s)
      (fun _ => Replaced env snapshotId index s) (Replaced env snapshotId index s) s := by
  rw [publishHealthySnapshot, wp_bind]
  refine wp_mono (fun _ s₁ h₁ => ?_) (fun _ _ hs => hs.replaced snapshotId)
    (fun _ hs => hs.replaced snapshotId) (wp_moveDestination h hindex hstaging hsnapshot hold)
  rw [wp_bind]
  refine wp_imp (fun _ s₂ h₂ => ?_)
    (wp_moveCandidate hindex h₁)
  have hlast : ∀ t, Only ⟨.old, index⟩ s₂ t → Replaced env snapshotId index s t := fun t ht =>
    h₂.1.settled (.of_old h₂.1.invariant hindex ht h₂.2)
  rw [wp_bind, wp_read]
  exact wp_mono (fun _ t ht => hlast t ht.1) (fun _ => hlast) hlast (wp_removeIf rfl)

/-! ## Capture -/

omit [DecidableEq δ] in
theorem oldestSlot_eq (disk : RingDisk) {found : Option (Nat × Nat)} {i created slot : Nat}
    (h : oldestSlot env disk found i = some (created, slot)) :
    slot = i ∨ ∃ c, found = some (c, slot) := by
  rcases found with _ | ⟨current, best⟩
  · exact Or.inl (Prod.mk.inj (Option.some.inj h)).2.symm
  · unfold oldestSlot at h
    dsimp only at h
    split at h
    all_goals split at h
    all_goals first
      | exact Or.inl (Prod.mk.inj (Option.some.inj h)).2.symm
      | exact Or.inr ⟨current, by rw [(Prod.mk.inj (Option.some.inj h)).2]⟩

omit [DecidableEq δ] in
theorem oldestSlot_foldl_mem (disk : RingDisk) {indices : List Nat} {found : Option (Nat × Nat)}
    {created slot : Nat} (h : indices.foldl (oldestSlot env disk) found = some (created, slot)) :
    slot ∈ indices ∨ ∃ c, found = some (c, slot) := by
  induction indices generalizing found with
  | nil => exact Or.inr ⟨created, h⟩
  | cons i indices ih =>
    rcases ih h with hmem | ⟨c, hc⟩
    · exact Or.inl (List.mem_cons_of_mem _ hmem)
    · rcases oldestSlot_eq disk hc with rfl | hfound
      · exact Or.inl (List.mem_cons_self ..)
      · exact Or.inr hfound

omit [DecidableEq δ] in
theorem wp_nextHealthySlot {Q : Nat → RingDisk → Prop} {E : SnapshotError → RingDisk → Prop}
    {C : RingDisk → Prop} (hQ : ∀ i, 1 ≤ i ∧ i ≤ env.healthySlots → Q i s) (hE : ∀ e, E e s)
    (hC : C s) : (nextHealthySlot env).wp Q E C s := by
  rw [nextHealthySlot, wp_bind, wp_attempt]
  refine ⟨hC, ?_, hE _⟩
  rw [wp_bind, wp_read]
  split
  · next i hfind => exact hQ i (mem_slotIndices.mp (List.mem_of_find?_eq_some hfind))
  · split
    · next slot hfold =>
      refine hQ slot (mem_slotIndices.mp ?_)
      rcases oldestSlot_foldl_mem s hfold with hmem | ⟨_, hnone⟩
      · exact hmem
      · exact nomatch hnone
    · exact hE _

/-- Every published snapshot is still published, except the one of a single slot that is
replaced by a snapshot with the identifier. -/
def ReplacesOne (env : SnapshotEnvironment δ) (snapshotId : String) (s s' : RingDisk) : Prop :=
  ∃ i, (∀ j, j ≠ i → ∀ directory, s.published j = some directory →
      s'.published j = some directory) ∧
    ∀ directory, s.published i = some directory → s'.published i = some directory ∨
      ∃ new, s'.published i = some new ∧ IsSnapshot env snapshotId new

def Captured (env : SnapshotEnvironment δ) (snapshotId : String) (s s' : RingDisk) : Prop :=
  RingInvariant env s' ∧ ReplacesOne env snapshotId s s'

theorem Recovered.captured (h : Recovered env s s') (snapshotId : String) :
    Captured env snapshotId s s' :=
  ⟨h.invariant, 0, fun j _ => h.published j, fun d hd => Or.inl (h.published 0 d hd)⟩

theorem Replaced.captured {snapshotId : String} (h : Recovered env s s')
    (h' : Replaced env snapshotId index s' s'') : Captured env snapshotId s s'' := by
  refine ⟨h'.invariant, index, fun j hj d hd => ?_, fun d hd => h'.published d (h.published _ d hd)⟩
  rw [h'.atSlot.published hj]
  exact h.published j d hd

/-- **A capture replaces one snapshot, or none**, wherever it is cut off. -/
theorem wp_captureHealthy (input : CaptureInput) (h : RingInvariant env s) :
    (captureHealthy env input).wp (fun _ => Captured env input.snapshotId s)
      (fun _ => Captured env input.snapshotId s) (Captured env input.snapshotId s) s := by
  have hstay : Captured env input.snapshotId s s :=
    Recovered.captured ⟨h, fun _ _ hd => hd⟩ _
  rw [captureHealthy, wp_bind, wp_ofExcept]
  refine ⟨fun _ _ => ?_, fun _ _ => hstay⟩
  rw [wp_bind, wp_attempt]
  refine ⟨hstay, ?_, hstay⟩
  rw [wp_bind]
  refine wp_mono ?_ (fun _ _ hs => hs.captured _) (fun _ hs => hs.captured _)
    (wp_recoverOrphanedHealthySlots h)
  rintro _ s₁ ⟨hrecovered, horphans, -⟩
  have h₁ := hrecovered.invariant
  have hcut := hrecovered.captured input.snapshotId
  rw [wp_bind]
  refine wp_nextHealthySlot (fun index hindex => ?_) (fun _ => hcut) hcut
  have hnext : ∀ t, Only ⟨.next, index⟩ s₁ t → Captured env input.snapshotId s t := fun t ht =>
    ((Settled.of_next h₁ hindex ht).replaced input.snapshotId).captured hrecovered
  rw [wp_bind, ensureNewDirectory, wp_bind, wp_read]
  split
  · exact hcut
  · have hput : Only ⟨.next, index⟩ s₁ (s₁.put ⟨.next, index⟩ ⟨none, none⟩) := .put s₁ _
    rw [wp_durable]
    refine ⟨hcut, hnext _ hput, ?_, hcut, hnext _ hput⟩
    rw [wp_bind, wp_toExcept, wp_bind]
    -- a failure before the first rename removes the staging directory
    have hfail : ∀ e t, Only ⟨.next, index⟩ s₁ t → Program.wp (do
        Program.ignoreError (removeDirectoryAll env ⟨.next, index⟩)
        throw e : RingProgram (SnapshotManifest δ)) (fun _ => Captured env input.snapshotId s)
        (fun _ => Captured env input.snapshotId s) (Captured env input.snapshotId s) t := by
      intro e t ht
      rw [wp_bind, wp_ignoreError]
      exact wp_mono (fun _ t' ht' => hnext t' (ht.trans ht'.1))
        (fun _ t' ht' => hnext t' (ht.trans ht')) (fun t' ht' => hnext t' (ht.trans ht'))
        (wp_removeDirectoryAll _ t)
    refine wp_mono (fun manifest s₂ h₂ => ?_) (fun e t ht => hfail e t (hput.trans ht))
      (fun t ht => hnext t (hput.trans ht)) (within_fillStaging ⟨.next, index⟩ input _)
    have honly := hput.trans h₂
    have hsettled := Settled.of_next h₁ hindex honly
    rw [wp_bind]
    refine wp_checkPublication (fun staging hstaging hsnapshot hold => ?_)
      (fun e => hfail e s₂ honly) (hnext s₂ honly)
    show (publishHealthySnapshot env index >>= fun _ => pure manifest).wp _ _ _ s₂
    rw [wp_bind]
    have hdone : ∀ t, Replaced env input.snapshotId index s₂ t →
        Captured env input.snapshotId s t := fun t ht => by
      refine Replaced.captured hrecovered (⟨ht.invariant,
        hsettled.atSlot.trans ht.atSlot, fun d hd => ht.published d (hsettled.published d hd)⟩ :
          Replaced env input.snapshotId index s₁ t)
    exact wp_mono (fun _ => hdone) (fun _ => hdone) hdone
      (wp_publishHealthySnapshot hsettled.invariant hindex hstaging hsnapshot hold)

end Capture

/-! ## Sessions -/

inductive RingCall where
  | capture (input : CaptureInput)
  | recover

section Session

variable {δ : Type} [DecidableEq δ] (env : SnapshotEnvironment δ)

def RingCall.program : RingCall → RingProgram Unit
  | .capture input => (fun _ => ()) <$> captureHealthy env input
  | .recover => recoverOrphanedHealthySlots env

def ringSession (cs : List (RingCall × List Fault)) (s₀ : RingDisk) : RingDisk :=
  Session.finalState (RingCall.program env) cs s₀

/-- A recovery keeps every published snapshot, and a capture all but the one it replaces. -/
def RingCall.Keeps : RingCall → RingDisk → RingDisk → Prop
  | .capture input, s, s' => ReplacesOne env input.snapshotId s s'
  | .recover, s, s' => ∀ i directory, s.published i = some directory →
      s'.published i = some directory

variable {env}

theorem wp_ringCall (call : RingCall) {s : RingDisk} (h : RingInvariant env s) :
    (call.program env).wp (fun _ s' => RingInvariant env s' ∧ call.Keeps env s s')
      (fun _ s' => RingInvariant env s' ∧ call.Keeps env s s')
      (fun s' => RingInvariant env s' ∧ call.Keeps env s s') s := by
  cases call with
  | capture input =>
    rw [RingCall.program, wp_map]
    exact wp_captureHealthy input h
  | recover =>
    have hkeeps : ∀ s', Recovered env s s' →
        RingInvariant env s' ∧ RingCall.recover.Keeps env s s' :=
      fun s' hs => ⟨hs.invariant, hs.published⟩
    exact wp_mono (fun _ s' hs => hkeeps s' hs.1) (fun _ => hkeeps) hkeeps
      (wp_recoverOrphanedHealthySlots h)

theorem ringInvariant_ringSession {s₀ : RingDisk} (h₀ : RingInvariant env s₀)
    (cs : List (RingCall × List Fault)) : RingInvariant env (ringSession env cs s₀) := by
  have hrespects : Session.Respects (RingCall.program env) (fun _ _ => True) cs s₀ :=
    Session.respects_true cs s₀
  refine Session.finalState_invariant (fun call s hs _ => ?_) cs s₀ h₀ hrespects
  exact wp_mono (fun _ _ h => h.1) (fun _ _ h => h.1) (fun _ h => h.1)
    (wp_ringCall call hs)

theorem keeps_ringSession {s₀ : RingDisk} (h₀ : RingInvariant env s₀)
    (before : List (RingCall × List Fault)) (c : RingCall × List Fault) :
    c.1.Keeps env (ringSession env before s₀) (ringSession env (before ++ [c]) s₀) := by
  rw [ringSession, ringSession, Session.finalState_append]
  exact Session.after_of_wp c.2 (wp_mono (fun _ _ h => h.2) (fun _ _ h => h.2)
    (fun _ h => h.2) (wp_ringCall c.1 (ringInvariant_ringSession h₀ before)))

/-- **The healthy ring survives interruption**, if and only if no old snapshot is left half
deleted.  The recovery after a session then succeeds; no orphan is left, every occupied slot
holds a healthy snapshot, and the published snapshots are still there, each call of the
session having replaced at most one. -/
theorem healthy_ring_survives (env : SnapshotEnvironment δ) (s₀ : RingDisk)
    (h₀ : RingInvariant env s₀) (cs : List (RingCall × List Fault)) :
    (∃ s', (recoverOrphanedHealthySlots env).run [] (ringSession env cs s₀) = (.ok (), s') ∧
      (∀ i, s'.get ⟨.old, i⟩ = none ∧ s'.get ⟨.next, i⟩ = none) ∧
      (∀ i directory, s'.get ⟨.slot, i⟩ = some directory → IsHealthy env directory) ∧
      (∀ i directory, (ringSession env cs s₀).published i = some directory →
        s'.get ⟨.slot, i⟩ = some directory) ∧
      ∀ before c after, cs = before ++ c :: after →
        c.1.Keeps env (ringSession env before s₀) (ringSession env (before ++ [c]) s₀)) ↔
      ∀ i directory, (ringSession env cs s₀).get ⟨.old, i⟩ = some directory →
        IsHealthy env directory := by
  have hinv := ringInvariant_ringSession h₀ cs
  have hwp := wp_recoverOrphanedHealthySlots hinv
  constructor
  · rintro ⟨s', hrun, -⟩
    have hmeets := (wp_iff_run _ _ _ _ _).mp hwp []
    rw [hrun] at hmeets
    exact hmeets.2.2
  · intro hold
    obtain ⟨_, s', hrun, -, hrecovered, horphans, -⟩ := (returns_iff_run _ _ _).mp
      (returns_and_of_wp (returns_recoverOrphanedHealthySlots hinv hold) hwp)
    refine ⟨s', hrun, horphans, hrecovered.invariant.slots, fun i directory hd => ?_,
      fun before c _ _ => keeps_ringSession h₀ before c⟩
    have hpublished := hrecovered.published i directory hd
    rw [RingDisk.published, (horphans i).1, Option.or_none] at hpublished
    exact hpublished

theorem oldIntact_of_keys {s : RingDisk} (h : ∀ name ∈ s.healthy.keys, name.kind = .old →
    (s.get name).all (fun directory => decide (IsHealthy env directory)) = true) :
    OldIntact env s := by
  intro i directory hd
  have hall := h ⟨.old, i⟩ (mem_keys_iff.mpr (by rw [hd]; rfl)) rfl
  rw [hd] at hall
  exact of_decide_eq_true hall

end Session

/-! ## A ring of one slot -/

/-- A snapshot of a profile that has nothing but its package. -/
def packageManifest (snapshotId : String) : SnapshotManifest Bytes where
  schema := SNAPSHOT_SCHEMA_VERSION
  snapshotId := snapshotId
  createdUnixMs := 0
  profileName := "default"
  kind := .healthy
  dshVersion := "1.0.0"
  pluginCount := 0
  fileCount := 1
  totalBytes := strippedText.length
  files i :=
    if i = 0 then
      ⟨(FILE_POLICY i).manifestPath, (FILE_POLICY i).scope, .present, strippedText.length,
        strippedText.length, some strippedText, some 0o600, [], none⟩
    else
      ⟨(FILE_POLICY i).manifestPath, (FILE_POLICY i).scope, .missing, 0, 0, none, none, [], none⟩

/-- An environment in which a manifest is encoded as its identifier, and a deletion starts
with the manifest. -/
def oneSlotEnvironment : SnapshotEnvironment Bytes where
  codecs := sampleCodecs
  sha256Hex bytes := bytes
  profileName := "default"
  snapshotRoot := "snapshots/default"
  healthySlots := 1
  parseManifest bytes :=
    if bytes = ascii "healthy-1" then .ok (packageManifest "healthy-1")
    else if bytes = ascii "healthy-2" then .ok (packageManifest "healthy-2")
    else .error "expected value at line 1 column 1"
  encodeManifest manifest := .ok (ascii manifest.snapshotId)
  listing directory :=
    .manifest :: ((directory.files.getD []).map fun file => .blob file.1) ++ [.filesDirectory]

def packageCapture (snapshotId : String) : RingCall :=
  .capture ⟨"1.0.0", fun i => if i = 0 then some ⟨strippedText, 0o600⟩ else none, snapshotId, 0⟩

def emptyRing : RingDisk := ⟨∅, [], [], []⟩

theorem ringInvariant_emptyRing : RingInvariant oneSlotEnvironment emptyRing where
  indices _ h := nomatch h
  slots _ _ h := nomatch h
  healthyStrays := rfl
  rootStrays := rfl

def cutBetweenRenames : List (RingCall × List Fault) :=
  [(packageCapture "healthy-1", []),
    (packageCapture "healthy-2", List.replicate 11 .none ++ [.crashAfter])]

/-- The snapshot that was moved aside comes back. -/
theorem recovered_between_renames : ∃ directory s',
    (recoverOrphanedHealthySlots oneSlotEnvironment).run []
      (ringSession oneSlotEnvironment cutBetweenRenames emptyRing) = (.ok (), s') ∧
    (ringSession oneSlotEnvironment cutBetweenRenames emptyRing).get ⟨.slot, 1⟩ = none ∧
    (ringSession oneSlotEnvironment cutBetweenRenames emptyRing).get ⟨.old, 1⟩ =
      some directory ∧ s'.get ⟨.slot, 1⟩ = some directory := by
  obtain ⟨s', hrun, -, -, hpublished, -⟩ := (healthy_ring_survives oneSlotEnvironment emptyRing
    ringInvariant_emptyRing cutBetweenRenames).mpr
      (oldIntact_of_keys (by decide +kernel))
  have hfree : (ringSession oneSlotEnvironment cutBetweenRenames emptyRing).get ⟨.slot, 1⟩ =
      none := by decide +kernel
  have hold : (ringSession oneSlotEnvironment cutBetweenRenames emptyRing).get ⟨.old, 1⟩ =
      some ⟨some (ascii "healthy-1"), some [("0", strippedText)]⟩ := by decide +kernel
  refine ⟨_, s', hrun, hfree, hold, hpublished 1 _ ?_⟩
  rw [RingDisk.published, hfree, hold]
  rfl

/-- A capture, and a second one that is cut off after the first entry of the old snapshot has
been unlinked. -/
def cutInsideDeletion : List (RingCall × List Fault) :=
  [(packageCapture "healthy-1", []),
    (packageCapture "healthy-2", List.replicate 13 .none ++ [.crashAfter])]

/-- **A half-deleted old snapshot blocks the ring**: the slot holds the new snapshot, and the
recovery fails. -/
theorem half_deleted_old_blocks_recovery :
    RingInvariant oneSlotEnvironment emptyRing ∧
    (ringSession oneSlotEnvironment cutInsideDeletion emptyRing).get ⟨.slot, 1⟩ =
      some ⟨some (ascii "healthy-2"), some [("0", strippedText)]⟩ ∧
    (ringSession oneSlotEnvironment cutInsideDeletion emptyRing).get ⟨.old, 1⟩ =
      some ⟨none, some [("0", strippedText)]⟩ ∧
    ((recoverOrphanedHealthySlots oneSlotEnvironment).run []
      (ringSession oneSlotEnvironment cutInsideDeletion emptyRing)).1 =
        .error (.invalidManifest "missing manifest.json") :=
  ⟨ringInvariant_emptyRing, by decide +kernel, by decide +kernel, by decide +kernel⟩

end DshNexus.Snapshot
