import DshNexus.Checkpoint.Parts

/-!
# The flow of a checkpoint restore

Whatever is to be shown about a checkpoint restore, its calls go through the same stages: the
journal is prepared while the content is applied and the selection is written, it is committed
while the ticket is committed, and it is cleared at the end.  A `RestoreFlow` says what holds at
each stage, and that every part of a call leads from one stage to the next or leaves it.

* `RestoreFlow`: the stages, and what the parts of a call do.
* `RestoreFlow.Keeps`: every cut of a call is at one of the stages.
* `RestoreFlow.keeps_resume`, `RestoreFlow.keeps_abort`, `RestoreFlow.keeps_startup`: so it is
  for the calls that follow a restore.
* `RestoreFlow.wp_afterPrepare`: and for the rest of its start.
-/

namespace DshNexus.Checkpoint

open Durable Program Release Snapshot

variable {δ : Type}

/-- The journal is in the phase, with the intent. -/
structure JournalIs (intent : CheckpointRestoreIntent δ) (phase : CheckpointRestorePhase)
    (journal : CheckpointRestoreJournal δ) : Prop where
  schemaVersion : journal.schemaVersion = CHECKPOINT_RESTORE_SCHEMA_VERSION
  intent : journal.intent = intent
  phase : journal.phase = phase

/-- The stored journal is in the phase, with the intent. -/
def InPhase (intent : CheckpointRestoreIntent δ) (phase : CheckpointRestorePhase)
    (s : CheckpointDisk δ) : Prop :=
  ∃ journal, s.journal = some journal ∧ JournalIs intent phase journal

section InPhase

variable {intent : CheckpointRestoreIntent δ} {phase : CheckpointRestorePhase}
  {journal : CheckpointRestoreJournal δ} {s : CheckpointDisk δ}

theorem InPhase.journalIs (h : InPhase intent phase s) (hjournal : s.journal = some journal) :
    JournalIs intent phase journal := by
  obtain ⟨other, hother, his⟩ := h
  rw [hjournal] at hother
  rw [Option.some.inj hother]
  exact his

theorem inPhase_recordError {error : Option String} (hjournal : s.journal = some journal)
    (h : InPhase intent phase s) :
    InPhase intent phase { s with journal := some { journal with error := error } } := by
  have his := h.journalIs hjournal
  exact ⟨_, rfl, his.schemaVersion, his.intent, his.phase⟩

end InPhase

variable [DecidableEq δ]

/-- The stages of a checkpoint restore with a ticket, and what its parts do at each. -/
structure RestoreFlow (env : CheckpointEnvironment δ) (intent : CheckpointRestoreIntent δ)
    (ticket : RestoreTicket δ) where
  /-- the journal is prepared -/
  prepared : CheckpointDisk δ → Prop
  /-- and the content may be applied again -/
  mayResume : CheckpointDisk δ → Prop
  /-- and the content has been rolled back -/
  back : CheckpointDisk δ → Prop
  /-- and so has the selection -/
  restored : CheckpointDisk δ → Prop
  /-- the content has been applied, with a materialization that is pending or not -/
  placed : Bool → CheckpointDisk δ → Prop
  /-- and the selection is the target -/
  selected : CheckpointDisk δ → Prop
  /-- the journal is committed -/
  committed : CheckpointDisk δ → Prop
  /-- the journal has been cleared -/
  ended : CheckpointDisk δ → Prop
  snapshot : intent.snapshot = some (bindingFor env ticket)
  prepared_phase : ∀ {s}, prepared s → InPhase intent .prepared s
  prepared_error : IgnoresError prepared
  prepared_of_placed : ∀ {pending s}, placed pending s → prepared s
  prepared_of_selected : ∀ {s}, selected s → prepared s
  prepared_of_restored : ∀ {s}, restored s → prepared s
  prepared_of_back : ∀ {s}, back s → prepared s
  committed_phase : ∀ {s}, committed s → InPhase intent .committed s
  committed_error : IgnoresError committed
  ended_journal : ∀ {s}, ended s → s.journal = none
  rollback : ∀ {s}, prepared s → (onRestore env (rollbackRestore env.restore ticket)).wp
    (fun _ => back) (fun _ => prepared) prepared s
  rollbackSelection : ∀ {s}, prepared s → (rollbackCheckpointSelection env intent).wp
    (fun _ s' => prepared s' ∧ (back s → restored s')) (fun _ => prepared) prepared s
  startupSelection : ∀ {s}, back s → (do
      let _ ← onReleases (restoreReleasePointers env.releases intent.previousCurrentRelease
        intent.previousLastKnownGood)
      onProfiles (writeProfiles intent.previousProfiles) : CheckpointProgram δ Unit).wp
    (fun _ => restored) (fun _ => prepared) prepared s
  clear_restored : ∀ {s}, restored s → ended { s with journal := none }
  apply : ∀ {s}, prepared s → mayResume s → (onRestore env (applyRestore env.restore ticket)).wp
    (fun outcome => placed outcome.materializationPending) (fun _ => prepared) prepared s
  mark : ∀ {s}, placed true s → (onRestore env (markMaterialized env.restore ticket)).wp
    (fun _ => placed false) (fun _ => prepared) prepared s
  select : ∀ {s}, placed false s → (applyCheckpointTargetSelection env intent).wp
    (fun _ => selected) (fun _ => prepared) prepared s
  commitJournal : ∀ {s journal}, selected s → JournalIs intent .committed journal →
    committed { s with journal := some journal }
  commit : ∀ {s}, committed s → (onRestore env (commitRestore env.restore ticket)).wp
    (fun _ => committed) (fun _ => committed) committed s
  validateCommitted : ∀ {s journal}, committed s → journal.intent = intent →
    (validateCommittedCheckpointRestore env journal).wp (fun _ => committed)
      (fun _ => committed) committed s
  clear_committed : ∀ {s}, committed s → ended { s with journal := none }

namespace RestoreFlow

variable {env : CheckpointEnvironment δ} {intent : CheckpointRestoreIntent δ}
  {ticket : RestoreTicket δ} (F : RestoreFlow env intent ticket) {s : CheckpointDisk δ}

/-- The restore is at one of its stages. -/
def Invariant (s : CheckpointDisk δ) : Prop := F.prepared s ∨ F.committed s ∨ F.ended s

/-- Every cut of the call is at one of the stages. -/
abbrev Keeps {α : Type} (p : CheckpointProgram δ α) (s : CheckpointDisk δ) : Prop :=
  p.wp (fun _ => F.Invariant) (fun _ => F.Invariant) F.Invariant s

theorem invariant_ignoresError : IgnoresError F.Invariant := by
  intro s journal error hjournal h
  rcases h with h | h | h
  · exact Or.inl (F.prepared_error s journal error hjournal h)
  · exact Or.inr (Or.inl (F.committed_error s journal error hjournal h))
  · rw [F.ended_journal h] at hjournal
    exact nomatch hjournal

/-! ## Taking back -/

theorem keeps_clearPrepared (hs : F.restored s) : F.Keeps (clearJournal env .prepared intent) s :=
  wp_clearJournal (Or.inl (F.prepared_of_restored hs)) (Or.inr (Or.inr (F.clear_restored hs)))

theorem keeps_rollbackContentRestore (hs : F.prepared s) (primary : IoError) :
    F.Keeps (rollbackContentRestore env intent ticket primary) s := by
  -- the selection is taken back whether the content has been or not
  have hcontent : (Program.toExcept
      ((fun _ => ()) <$> onRestore env (rollbackRestore env.restore ticket))).wp
      (fun content s₁ => F.prepared s₁ ∧ (content = .ok () → F.back s₁))
      (fun _ => F.Invariant) F.Invariant s := by
    rw [wp_toExcept, wp_map]
    exact wp_mono (fun _ s₁ h₁ => ⟨F.prepared_of_back h₁, fun _ => h₁⟩)
      (fun error s₁ h₁ => ⟨h₁, fun hok => by cases hok⟩) (fun s₁ h₁ => Or.inl h₁) (F.rollback hs)
  rw [Keeps, rollbackContentRestore, wp_bind]
  refine wp_imp ?_ hcontent
  rintro content s₁ ⟨h₁, hback⟩
  rw [wp_bind, wp_toExcept]
  refine wp_mono ?_ (fun error s₂ h₂ => ?_) (fun _ h₂ => Or.inl h₂) (F.rollbackSelection h₁)
  · rintro _ s₂ ⟨h₂, hrestored⟩
    rcases content with error | _
    · exact Or.inl h₂
    · show (Program.toExcept (clearJournal env .prepared intent) >>= _).wp _ _ _ _
      rw [wp_bind, wp_toExcept]
      exact F.keeps_clearPrepared (hrestored (hback rfl))
  · rcases content with first | _
    · exact Or.inl h₂
    · exact Or.inl h₂

/-! ## Going on -/

theorem keeps_clearCommitted (hs : F.committed s) :
    F.Keeps (clearJournal env .committed intent) s :=
  wp_clearJournal (Or.inr (Or.inl hs)) (Or.inr (Or.inr (F.clear_committed hs)))

theorem keeps_commitContentRestore (hs : F.committed s) (outcome : Option RestoreOutcome) :
    F.Keeps (commitContentRestore env intent ticket outcome) s := by
  refine wp_orPending F.invariant_ignoresError ?_
  refine wp_mono (fun _ s₁ h₁ => ?_) (fun _ _ h₁ => Or.inr (Or.inl h₁))
    (fun _ h₁ => Or.inr (Or.inl h₁)) (F.commit hs)
  rw [wp_bind]
  exact wp_imp (fun _ _ h₂ => h₂)
    (F.keeps_clearCommitted h₁)

theorem wp_markCommitted (hs : F.selected s) :
    (markCommitted env intent).wp (fun _ => F.committed)
      (fun _ s' => F.prepared s' ∨ F.committed s') F.Invariant s := by
  have hprepared := F.prepared_of_selected hs
  rw [markCommitted, wp_bind]
  refine wp_loadJournal (fun journal hjournal _ => ?_) fun _ => Or.inl hprepared
  rcases journal with _ | journal
  · exact Or.inl hprepared
  · dsimp only
    split
    · exact Or.inl hprepared
    · have his := (F.prepared_phase hprepared).journalIs hjournal
      have hnext : F.committed
          { s with journal := some { journal with phase := .committed, error := none } } :=
        F.commitJournal hs ⟨his.schemaVersion, his.intent, rfl⟩
      rw [writeJournal, wp_durable]
      exact ⟨Or.inl hprepared, Or.inr (Or.inl hnext), hnext, Or.inl hprepared, Or.inr hnext⟩

theorem keeps_inspectCommit (hs : F.prepared s ∨ F.committed s) (primary : IoError)
    (outcome : Option RestoreOutcome) :
    F.Keeps (do
      match ← Program.toExcept (loadJournal env) with
      | .error inspection =>
          throw ⟨primary.kind, primary.message ++
            "; cannot inspect checkpoint commit outcome: " ++ inspection.message⟩
      | .ok none => throw primary
      | .ok (some journal) =>
          if journal.intent ≠ intent then throw primary
          else if journal.phase = .committed then
            commitContentRestore env intent ticket outcome
          else rollbackContentRestore env intent ticket primary) s := by
  have hkeep : F.Invariant s := hs.elim Or.inl fun hs => Or.inr (Or.inl hs)
  rw [Keeps, wp_bind, wp_toExcept]
  refine wp_loadJournal (fun journal hjournal _ => ?_) fun _ => hkeep
  rcases journal with _ | journal
  · exact hkeep
  · dsimp only
    split
    · exact hkeep
    · split
      · next hphase =>
        rcases hs with hs | hs
        · rw [((F.prepared_phase hs).journalIs hjournal).phase] at hphase
          exact nomatch hphase
        · exact F.keeps_commitContentRestore hs outcome
      · next hphase =>
        rcases hs with hs | hs
        · exact F.keeps_rollbackContentRestore hs primary
        · exact absurd ((F.committed_phase hs).journalIs hjournal).phase hphase

theorem keeps_publishContentRestore (hs : F.placed false s) (outcome : RestoreOutcome) :
    F.Keeps (publishContentRestore env intent ticket outcome) s := by
  rw [Keeps, publishContentRestore, wp_bind, wp_toExcept]
  refine wp_mono (fun _ s₁ h₁ => ?_) (fun error s₁ h₁ => ?_) (fun _ h₁ => Or.inl h₁)
    (F.select hs)
  · dsimp only
    rw [wp_bind, wp_toExcept]
    refine wp_mono (fun _ s₂ h₂ => ?_) (fun primary s₂ h₂ => ?_) (fun _ h₂ => h₂)
      (F.wp_markCommitted h₁)
    · exact F.keeps_commitContentRestore h₂ _
    · exact F.keeps_inspectCommit h₂ primary _
  · exact F.keeps_rollbackContentRestore h₁ error

theorem keeps_finishContentRestore (outcome : RestoreOutcome)
    (hs : F.placed outcome.materializationPending s) :
    F.Keeps (finishContentRestore env intent ticket outcome) s := by
  have hkeep : F.Invariant s := Or.inl (F.prepared_of_placed hs)
  rw [Keeps, finishContentRestore]
  split
  · next hpending =>
    rw [hpending] at hs
    refine wp_orPending F.invariant_ignoresError ?_
    rw [elsewhere, wp_attempt]
    refine ⟨hkeep, wp_orPending F.invariant_ignoresError ?_, hkeep⟩
    exact wp_mono (fun outcome s₁ h₁ => F.keeps_publishContentRestore h₁ outcome)
      (fun _ _ h₁ => Or.inl h₁) (fun _ h₁ => Or.inl h₁) (F.mark hs)
  · next hpending =>
    rw [Bool.not_eq_true] at hpending
    rw [hpending] at hs
    exact F.keeps_publishContentRestore hs outcome

theorem keeps_applyContent (hs : F.prepared s) (hmay : F.mayResume s) :
    F.Keeps (orPending env intent none (onRestore env (applyRestore env.restore ticket))
      fun outcome => finishContentRestore env intent ticket outcome) s :=
  wp_orPending F.invariant_ignoresError (wp_mono
    (fun outcome _ h₁ => F.keeps_finishContentRestore outcome h₁) (fun _ _ h₁ => Or.inl h₁)
    (fun _ h₁ => Or.inl h₁) (F.apply hs hmay))

/-! ## The rest of the start -/

end RestoreFlow

section Start

variable {env : CheckpointEnvironment δ} {intent : CheckpointRestoreIntent δ}
  {ticket : RestoreTicket δ} {s : CheckpointDisk δ}

omit [DecidableEq δ] in
theorem wp_beginRestore {Q : Unit → CheckpointDisk δ → Prop}
    {E : IoError → CheckpointDisk δ → Prop} {C : CheckpointDisk δ → Prop}
    (hC : C s) (hE : ∀ e, E e s)
    (hwritten : validateCheckpointRestoreIntent env intent = .ok () →
      ∀ journal, JournalIs intent .prepared journal →
        Q () { s with journal := some journal } ∧ C { s with journal := some journal } ∧
          ∀ e, E e { s with journal := some journal }) :
    (beginRestore env intent).wp Q E C s := by
  rw [beginRestore, wp_bind, wp_ofExcept]
  refine ⟨fun _ hvalid => ?_, fun e _ => hE e⟩
  rw [wp_bind]
  refine wp_loadJournal (fun journal _ _ => ?_) hE
  rcases journal with _ | journal
  · obtain ⟨hQ, hC', hE'⟩ := hwritten hvalid
      ⟨1, CHECKPOINT_RESTORE_SCHEMA_VERSION, .prepared, intent, none⟩ ⟨rfl, rfl, rfl⟩
    dsimp only
    rw [writeJournal, wp_durable]
    exact ⟨hC, hC', hQ, hE _, hE' _⟩
  · exact hE _

theorem wp_afterPrepare {I : CheckpointDisk δ → Prop} (hs : I s)
    (hrollback : (onRestore env (rollbackRestore env.restore ticket)).wp (fun _ => I)
      (fun _ => I) I s)
    (hflow : validateCheckpointRestoreIntent env intent = .ok () →
      ∃ F : RestoreFlow env intent ticket, (∀ s', F.Invariant s' → I s') ∧
        ∀ journal, JournalIs intent .prepared journal →
          F.prepared { s with journal := some journal } ∧
            F.mayResume { s with journal := some journal }) :
    (do
      match ← Program.toExcept (beginRestore env intent) with
      | .error error => do
          let rollback ← Program.toExcept
            ((fun _ => ()) <$> onRestore env (rollbackRestore env.restore ticket))
          throw (checkpointTransactionError error rollback)
      | .ok _ =>
          orPending env intent none (onRestore env (applyRestore env.restore ticket))
            fun outcome => finishContentRestore env intent ticket outcome).wp
      (fun _ => I) (fun _ => I) I s := by
  rw [wp_bind, wp_toExcept]
  refine wp_beginRestore hs (fun error => ?_) fun hvalid journal hjournal => ?_
  · rw [wp_bind, wp_toExcept, wp_map]
    exact hrollback
  · obtain ⟨F, hinvariant, hwritten⟩ := hflow hvalid
    obtain ⟨hprepared, hmay⟩ := hwritten journal hjournal
    refine ⟨?_, hinvariant _ (Or.inl hprepared), fun error => ?_⟩
    · exact wp_mono (fun _ => hinvariant) (fun _ => hinvariant) hinvariant
        (F.keeps_applyContent hprepared hmay)
    · rw [wp_bind, wp_toExcept, wp_map]
      exact wp_mono (fun _ s' h' => hinvariant s' (Or.inl (F.prepared_of_back h')))
        (fun _ s' h' => hinvariant s' (Or.inl h')) (fun s' h' => hinvariant s' (Or.inl h'))
        (F.rollback hprepared)

end Start

/-! ## Later calls -/

section Requests

variable {env : CheckpointEnvironment δ} {s : CheckpointDisk δ}

omit [DecidableEq δ] in
theorem readOnly_acquire (env : CheckpointEnvironment δ) (profile : String) :
    (acquire env profile).ReadOnly := by
  rw [acquire]
  split
  · exact readOnly_throw _
  · exact readOnly_attempt _

omit [DecidableEq δ] in
theorem readOnly_acquireBound (env : CheckpointEnvironment δ) (binding : BoundSnapshotRestore δ) :
    (acquireBound env binding).ReadOnly := by
  rw [acquireBound]
  split
  · exact readOnly_throw _
  · refine (readOnly_acquire env _).bind fun _ => ?_
    split
    · exact readOnly_throw _
    · exact readOnly_pure _

omit [DecidableEq δ] in
theorem wp_loadRequestedContentRestore {requestedId : Option String}
    {Q : CheckpointRestoreJournal δ → CheckpointDisk δ → Prop}
    {E : IoError → CheckpointDisk δ → Prop} {C : CheckpointDisk δ → Prop}
    (hQ : ∀ journal, s.journal = some journal → Q journal s) (hE : ∀ e, E e s) (hC : C s) :
    (loadRequestedContentRestore env requestedId).wp Q E C s := by
  rw [loadRequestedContentRestore, wp_bind]
  refine wp_loadJournal (fun journal hjournal _ => ?_) hE
  rcases journal with _ | journal
  · exact hE _
  · dsimp only
    rw [wp_bind, elsewhere, wp_attempt]
    refine ⟨hC, ?_, hE _⟩
    rcases hsnapshot : journal.intent.snapshot with _ | binding
    · exact hE _
    · dsimp only
      split
      · exact hE _
      · exact hQ journal hjournal

inductive CheckpointCall where
  | retry (requestedId : Option String)
  | abort (requestedId : Option String)
  | startup
  deriving DecidableEq, Repr

def CheckpointCall.program (env : CheckpointEnvironment δ) : CheckpointCall → CheckpointProgram δ Unit
  | .retry requestedId => (fun _ => ()) <$> checkpointRestoreRetry env requestedId
  | .abort requestedId => checkpointRestoreAbort env requestedId
  | .startup => recoverCheckpointRestoreStartup env

theorem wp_checkpointCall_of_none {I : CheckpointDisk δ → Prop} (hnone : s.journal = none)
    (hs : I s) (call : CheckpointCall) :
    (call.program env).wp (fun _ => I) (fun _ => I) I s := by
  have hno : ∀ journal, s.journal = some journal → False := fun journal hjournal => by
    rw [hnone] at hjournal
    exact nomatch hjournal
  cases call with
  | retry requestedId =>
    rw [CheckpointCall.program, wp_map, checkpointRestoreRetry, wp_bind,
      elsewhere, wp_attempt]
    refine ⟨hs, ?_, hs⟩
    rw [wp_bind]
    exact wp_loadRequestedContentRestore (fun journal hjournal => (hno journal hjournal).elim)
      (fun _ => hs) hs
  | abort requestedId =>
    rw [CheckpointCall.program, checkpointRestoreAbort, wp_bind, elsewhere,
      wp_attempt]
    refine ⟨hs, ?_, hs⟩
    rw [wp_bind]
    exact wp_loadRequestedContentRestore (fun journal hjournal => (hno journal hjournal).elim)
      (fun _ => hs) hs
  | startup =>
    rw [CheckpointCall.program, recoverCheckpointRestoreStartup, wp_bind]
    refine wp_loadJournal (fun journal hjournal _ => ?_) fun _ => hs
    rcases journal with _ | journal
    · exact hs
    · exact (hno journal hjournal).elim

end Requests

namespace RestoreFlow

variable {env : CheckpointEnvironment δ} {intent : CheckpointRestoreIntent δ}
  {ticket : RestoreTicket δ} (F : RestoreFlow env intent ticket) {s : CheckpointDisk δ}
  {journal : CheckpointRestoreJournal δ}

theorem pending_of_journal (hs : F.Invariant s) (hjournal : s.journal = some journal) :
    F.prepared s ∧ JournalIs intent .prepared journal ∨
      F.committed s ∧ JournalIs intent .committed journal := by
  rcases hs with hs | hs | hs
  · exact Or.inl ⟨hs, (F.prepared_phase hs).journalIs hjournal⟩
  · exact Or.inr ⟨hs, (F.committed_phase hs).journalIs hjournal⟩
  · rw [F.ended_journal hs] at hjournal
    exact nomatch hjournal

theorem keeps_resume (hs : F.Invariant s) (hjournal : s.journal = some journal)
    (hmay : F.prepared s → F.mayResume s) :
    F.Keeps (resumeContentCheckpointRestore env journal) s := by
  have hpending := F.pending_of_journal hs hjournal
  have hintent : journal.intent = intent := hpending.elim (fun h => h.2.intent) fun h => h.2.intent
  rw [Keeps, resumeContentCheckpointRestore, hintent, F.snapshot]
  dsimp only
  rw [wp_bind]
  refine (readOnly_acquireBound env _).wp (fun _ => ?_) (fun _ => hs) hs
  split
  · next hphase =>
    have hcommitted : F.committed s := by
      rcases hpending with ⟨-, his⟩ | ⟨hcommitted, -⟩
      · rw [his.phase] at hphase
        exact nomatch hphase
      · exact hcommitted
    rw [wp_bind]
    exact wp_mono (fun _ s₁ h₁ => F.keeps_commitContentRestore h₁ none)
      (fun _ _ h₁ => Or.inr (Or.inl h₁)) (fun _ h₁ => Or.inr (Or.inl h₁))
      (F.validateCommitted hcommitted hintent)
  · next hphase =>
    rcases hpending with ⟨hprepared, -⟩ | ⟨-, his⟩
    · exact F.keeps_applyContent hprepared (hmay hprepared)
    · exact absurd his.phase hphase

theorem keeps_abort (hs : F.prepared s) : F.Keeps (do
      let _ ← onRestore env (rollbackRestore env.restore ticket)
      rollbackCheckpointSelection env intent
      clearJournal env .prepared intent) s := by
  rw [Keeps, wp_bind]
  refine wp_mono (fun _ s₁ h₁ => ?_) (fun _ _ h₁ => Or.inl h₁) (fun _ h₁ => Or.inl h₁)
    (F.rollback hs)
  rw [wp_bind]
  exact wp_mono (fun _ _ h₂ => F.keeps_clearPrepared (h₂.2 h₁)) (fun _ _ h₂ => Or.inl h₂)
    (fun _ h₂ => Or.inl h₂) (F.rollbackSelection (F.prepared_of_back h₁))

theorem keeps_recover (hs : F.Invariant s) (hjournal : s.journal = some journal) :
    F.Keeps (recoverContentRestore env journal (bindingFor env ticket)) s := by
  have hpending := F.pending_of_journal hs hjournal
  have hintent : journal.intent = intent := hpending.elim (fun h => h.2.intent) fun h => h.2.intent
  rw [Keeps, recoverContentRestore, wp_bind]
  refine (readOnly_acquireBound env _).wp (fun _ => ?_) (fun _ => hs) hs
  rcases hpending with ⟨hprepared, his⟩ | ⟨hcommitted, his⟩
  · rw [his.phase]
    dsimp only
    rw [wp_bind]
    refine wp_mono (fun _ s₁ h₁ => ?_) (fun _ _ h₁ => Or.inl h₁) (fun _ h₁ => Or.inl h₁)
      (F.rollback hprepared)
    have hselection := F.startupSelection h₁
    rw [wp_bind] at hselection
    rw [wp_bind, hintent]
    refine wp_mono (fun _ s₂ h₂ => ?_) (fun _ _ h₂ => Or.inl h₂) (fun _ h₂ => Or.inl h₂)
      hselection
    rw [wp_bind]
    exact wp_mono (fun _ _ h₃ => F.keeps_clearPrepared h₃) (fun _ _ h₃ => Or.inl h₃)
      (fun _ h₃ => Or.inl h₃) h₂
  · rw [his.phase]
    dsimp only
    rw [wp_bind]
    refine wp_mono (fun _ s₁ h₁ => ?_) (fun _ _ h₁ => Or.inr (Or.inl h₁))
      (fun _ h₁ => Or.inr (Or.inl h₁)) (F.validateCommitted hcommitted hintent)
    rw [wp_bind, hintent]
    exact wp_mono (fun _ s₂ h₂ => F.keeps_clearCommitted h₂)
      (fun _ _ h₂ => Or.inr (Or.inl h₂)) (fun _ h₂ => Or.inr (Or.inl h₂)) (F.commit h₁)

/-- **Every cut of a later call is at one of the stages**, if a retry of a prepared journal may
apply the content again. -/
theorem keeps_checkpointCall (hs : F.Invariant s) (call : CheckpointCall)
    (hmay : ∀ requestedId, call = .retry requestedId → F.prepared s → F.mayResume s) :
    F.Keeps (call.program env) s := by
  cases call with
  | retry requestedId =>
    rw [Keeps, CheckpointCall.program, wp_map, checkpointRestoreRetry, wp_bind,
      elsewhere, wp_attempt]
    refine ⟨hs, ?_, hs⟩
    rw [wp_bind]
    refine wp_loadRequestedContentRestore (fun journal hjournal => ?_) (fun _ => hs) hs
    rw [wp_bind, wp_attempt]
    exact ⟨hs, F.keeps_resume hs hjournal (hmay requestedId rfl), hs⟩
  | abort requestedId =>
    rw [Keeps, CheckpointCall.program, checkpointRestoreAbort, wp_bind, elsewhere,
      wp_attempt]
    refine ⟨hs, ?_, hs⟩
    rw [wp_bind]
    refine wp_loadRequestedContentRestore (fun journal hjournal => ?_) (fun _ => hs) hs
    split
    · exact hs
    · next hphase =>
      rw [not_not] at hphase
      obtain ⟨hprepared, his⟩ : F.prepared s ∧ JournalIs intent .prepared journal := by
        rcases F.pending_of_journal hs hjournal with h | ⟨-, his⟩
        · exact h
        · rw [his.phase] at hphase
          cases hphase
      rw [wp_bind, wp_attempt, his.intent, F.snapshot]
      refine ⟨hs, ?_, hs⟩
      dsimp only
      rw [wp_bind]
      exact (readOnly_acquireBound env _).wp (fun _ => F.keeps_abort hprepared) (fun _ => hs) hs
  | startup =>
    rw [Keeps, CheckpointCall.program, recoverCheckpointRestoreStartup, wp_bind]
    refine wp_loadJournal (fun journal hjournal _ => ?_) fun _ => hs
    rcases journal with _ | journal
    · exact hs
    · have hintent : journal.intent = intent := (F.pending_of_journal hs hjournal).elim
        (fun h => h.2.intent) fun h => h.2.intent
      dsimp only
      rw [wp_bind, elsewhere, wp_attempt, hintent, F.snapshot]
      refine ⟨hs, ?_, hs⟩
      dsimp only
      rw [wp_tryCatch]
      refine wp_mono (fun _ _ h₁ => h₁) (fun error s₁ h₁ => ?_) (fun _ h₁ => h₁)
        (F.keeps_recover hs hjournal)
      rw [wp_ignoreError]
      exact wp_recordError F.invariant_ignoresError h₁ _

end RestoreFlow

end DshNexus.Checkpoint
