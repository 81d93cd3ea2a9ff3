import DshNexus.Config.Transaction

/-!
# Recovery of the configuration pair

What one settlement can do is said once, in `wp_settlePendingInner`: it stays where it
is, or the record recognises both files and the settlement is at one of the cuts between
there and `settled`.
-/

namespace DshNexus.Config

open Durable Program

def ConfigDisk.pair (disk : ConfigDisk) : Option Bytes × Option Bytes :=
  (disk.config, disk.previous)

def Pending.old (p : Pending) : PairFile → Option Bytes
  | .config => p.oldCurrent
  | .previous => p.oldPrevious

def Pending.new (p : Pending) : PairFile → Option Bytes
  | .config => some p.target
  | .previous => p.nextPrevious

/-- The record recognises the content of both files: a committed record only its target
pair, a prepared one each file as its old or its new content. -/
def Pending.Recognises (p : Pending) (disk : ConfigDisk) : Prop :=
  ∀ path, disk.get path = p.new path ∨ p.committed = false ∧ disk.get path = p.old path

/-- The disk with the recorded old pair. -/
def rolledBack (p : Pending) (disk : ConfigDisk) : ConfigDisk :=
  { disk with config := p.oldCurrent, previous := p.oldPrevious }

/-- The disk after a complete settlement of the record. -/
def settled (p : Pending) (disk : ConfigDisk) : ConfigDisk :=
  if p.committed = true then { disk with pending := none }
  else { rolledBack p disk with pending := none }

/-- Where a settlement that recognises both files may be cut. -/
def SettleCut (p : Pending) (disk cut : ConfigDisk) : Prop :=
  cut = disk ∨ cut = settled p disk ∨
    p.committed = false ∧ (cut = { disk with config := p.oldCurrent } ∨ cut = rolledBack p disk)

@[simp] theorem ConfigDisk.get_config (disk : ConfigDisk) : disk.get .config = disk.config := rfl

@[simp] theorem ConfigDisk.get_previous (disk : ConfigDisk) :
    disk.get .previous = disk.previous := rfl

theorem ConfigDisk.set_get (disk : ConfigDisk) (path : PairFile) :
    disk.set path (disk.get path) = disk := by
  cases path <;> rfl

theorem get_of_settleCut {p : Pending} {disk cut : ConfigDisk} (h : SettleCut p disk cut)
    {path : PairFile} (hne : cut.get path ≠ disk.get path) :
    p.committed = false ∧ cut.get path = p.old path := by
  rcases h with rfl | rfl | ⟨hc, rfl | rfl⟩
  · exact absurd rfl hne
  · by_cases hc : p.committed = true
    · rw [settled, if_pos hc] at hne
      exact absurd (by cases path <;> rfl) hne
    · rw [settled, if_neg hc]
      exact ⟨by simpa using hc, by cases path <;> rfl⟩
  · cases path
    · exact ⟨hc, rfl⟩
    · exact absurd rfl hne
  · exact ⟨hc, by cases path <;> rfl⟩

namespace ConfigStore

variable (checks : ConfigChecks)

/-! ## The calls that only read -/

theorem readOnly_validateDocument (bytes : Bytes) : (validateDocument checks bytes).ReadOnly :=
  (readOnly_attempt _).bind fun _ => readOnly_ofExcept _

theorem readOnly_validatePendingConfigs (p : Pending) :
    (validatePendingConfigs checks p).ReadOnly := by
  unfold validatePendingConfigs
  split
  · exact readOnly_throw _
  · refine readOnly_forM (fun bytes => ?_) _
    split
    · exact readOnly_throw _
    · exact readOnly_validateDocument checks bytes

theorem readOnly_outerPreservesCurrent : (outerPreservesCurrent checks).ReadOnly := by
  refine readOnly_read.bind fun disk => ?_
  split
  · exact readOnly_pure false
  · exact readOnly_ofExcept _

theorem readOnly_validatePrevious (bytes : Option Bytes) :
    (validatePrevious checks bytes).ReadOnly := by
  rcases bytes with _ | bytes
  · exact readOnly_pure ()
  · exact readOnly_validateDocument checks bytes

theorem outerPreservesCurrent_of_none {Q : Bool → ConfigDisk → Prop}
    {E : IoError → ConfigDisk → Prop} {C : ConfigDisk → Prop} {s : ConfigDisk}
    (h : s.outerPublication = none) (hQ : Q false s) :
    (outerPreservesCurrent checks).wp Q E C s := by
  rw [outerPreservesCurrent, wp_bind, wp_read, h]
  exact hQ

/-! ## One settlement -/

theorem wp_restoreBytes {path : PairFile} {observed target : Option Bytes}
    {Q : Unit → ConfigDisk → Prop} {E : IoError → ConfigDisk → Prop} {C : ConfigDisk → Prop}
    {s : ConfigDisk} (hobs : s.get path = observed) (hQ : Q () (s.set path target))
    (hE : ∀ e, E e s ∧ E e (s.set path target)) (hC : C s ∧ C (s.set path target)) :
    (restoreBytes path observed target).wp Q E C s := by
  unfold restoreBytes
  split
  · next heq =>
    rw [← heq, ← hobs, ConfigDisk.set_get] at hQ
    exact hQ
  · rw [wp_bind]
    refine wp_readFile ?_ fun e => (hE e).1
    rw [if_neg (not_not.mpr hobs)]
    cases target <;>
      exact ⟨hC.1, hC.2, hQ, (hE _).1, (hE _).2⟩

/-- **What one settlement can do.**  It succeeds only in `settled`, when the record
recognises both files; every error and every crash leaves the disk as it was, or at a cut
of such a settlement. -/
theorem wp_settlePendingInner {s : ConfigDisk} {p : Pending} (hp : s.pending = some p)
    (hpreserve : s.preserve = none) (houter : s.outerPublication = none) :
    (settlePendingInner checks).wp
      (fun _ s' => p.Recognises s ∧ s' = settled p s)
      (fun _ s' => s' = s ∨ p.Recognises s ∧ SettleCut p s s')
      (fun s' => s' = s ∨ p.Recognises s ∧ SettleCut p s s') s := by
  have hstay : ∀ _ : IoError, s = s ∨ p.Recognises s ∧ SettleCut p s s := fun _ => Or.inl rfl
  rw [settlePendingInner, wp_bind]
  refine outerPreservesCurrent_of_none checks houter ?_
  rw [wp_bind, wp_read, if_neg (by simp [hpreserve]), hp]
  rw [wp_bind]
  refine (readOnly_validatePendingConfigs checks p).wp (fun _ => ?_) hstay (Or.inl rfl)
  split
  · exact Or.inl rfl
  rw [wp_bind]
  refine wp_readFile ?_ hstay
  rw [wp_bind]
  refine wp_readFile ?_ hstay
  by_cases hc : p.committed = true
  · -- a committed record accepts exactly its target pair
    rw [if_pos hc]
    split
    · exact Or.inl rfl
    · next hpair =>
      rw [not_or, not_not, not_not] at hpair
      have hrec : p.Recognises s := by
        rintro (_ | _)
        · exact Or.inl hpair.1
        · exact Or.inl hpair.2
      have hdone : { s with pending := none } = settled p s := by rw [settled, if_pos hc]
      rw [removePending, wp_durable, hdone]
      exact ⟨Or.inl rfl, Or.inr ⟨hrec, Or.inr (Or.inl rfl)⟩, ⟨hrec, rfl⟩, Or.inl rfl,
        Or.inr ⟨hrec, Or.inr (Or.inl rfl)⟩⟩
  · -- a prepared record judges both files before it changes either
    have hc' : p.committed = false := by simpa using hc
    rw [if_neg hc]
    split
    · exact Or.inl rfl
    · next hpair =>
      rw [not_or, not_and_or, not_and_or, not_not, not_not, not_not, not_not] at hpair
      have hrec : p.Recognises s := by
        rintro (_ | _)
        · exact hpair.1.symm.imp_right fun h => ⟨hc', h⟩
        · exact hpair.2.symm.imp_right fun h => ⟨hc', h⟩
      have hdone : { rolledBack p s with pending := none } = settled p s := by
        rw [settled, if_neg hc]
      have hcut1 : s = s ∨ p.Recognises s ∧ SettleCut p s s := Or.inl rfl
      have hcut2 : ({ s with config := p.oldCurrent } : ConfigDisk) = s ∨
          p.Recognises s ∧ SettleCut p s { s with config := p.oldCurrent } :=
        Or.inr ⟨hrec, Or.inr (Or.inr ⟨hc', Or.inl rfl⟩)⟩
      have hcut3 : rolledBack p s = s ∨ p.Recognises s ∧ SettleCut p s (rolledBack p s) :=
        Or.inr ⟨hrec, Or.inr (Or.inr ⟨hc', Or.inr rfl⟩)⟩
      rw [wp_bind]
      refine wp_restoreBytes rfl ?_ (fun _ => ⟨hcut1, hcut2⟩) ⟨hcut1, hcut2⟩
      rw [wp_bind]
      refine wp_restoreBytes rfl ?_ (fun _ => ⟨hcut2, hcut3⟩) ⟨hcut2, hcut3⟩
      show Program.wp (Program.durable _ _) _ _ _ (rolledBack p s)
      rw [wp_durable, hdone]
      exact ⟨hcut3, Or.inr ⟨hrec, Or.inr (Or.inl rfl)⟩, ⟨hrec, rfl⟩, hcut3,
        Or.inr ⟨hrec, Or.inr (Or.inl rfl)⟩⟩

/-- **Recovery changes only bytes it owns.**  Whatever the faults, a settlement changes a
file only when the record is prepared and the file held its recorded old or new content,
and then the file receives the recorded old content.  When the record does not recognise
the two files, the settlement fails, and the disk, with the record, is as it was. -/
theorem settlePendingInner_owns_what_it_changes (disk : ConfigDisk) (p : Pending)
    (hp : disk.pending = some p) (hpreserve : disk.preserve = none)
    (houter : disk.outerPublication = none) (fs : List Fault) :
    (∀ path, ((settlePendingInner checks).run fs disk).2.get path ≠ disk.get path →
        p.committed = false ∧ (disk.get path = p.old path ∨ disk.get path = p.new path) ∧
          ((settlePendingInner checks).run fs disk).2.get path = p.old path) ∧
      (¬ p.Recognises disk → ((settlePendingInner checks).run fs disk).2 = disk ∧
        ((settlePendingInner checks).run fs disk).1 ≠ .ok () ∧
        ((∀ f ∈ fs, f ≠ .crashBefore ∧ f ≠ .crashAfter) →
          ∃ e, ((settlePendingInner checks).run fs disk).1 = .error e)) := by
  have hrun := (wp_iff_run _ _ _ _ disk).mp
    (wp_settlePendingInner checks hp hpreserve houter) fs
  have hcut : ((settlePendingInner checks).run fs disk).2 = disk ∨ p.Recognises disk ∧
      SettleCut p disk ((settlePendingInner checks).run fs disk).2 := by
    rcases hr : (settlePendingInner checks).run fs disk with ⟨_ | _ | _, s'⟩ <;>
      rw [hr] at hrun
    · exact Or.inr ⟨hrun.1, Or.inr (Or.inl hrun.2)⟩
    · exact hrun
    · exact hrun
  refine ⟨fun path hne => ?_, fun hforeign => ⟨?_, ?_, fun hfs => ?_⟩⟩
  · rcases hcut with heq | ⟨hrec, hcut⟩
    · exact absurd (congrArg (·.get path) heq) hne
    · obtain ⟨hc, hold⟩ := get_of_settleCut hcut hne
      exact ⟨hc, (hrec path).symm.imp_left And.right, hold⟩
  · exact hcut.resolve_right fun h => hforeign h.1
  · intro hok
    rcases hr : (settlePendingInner checks).run fs disk with ⟨_ | _ | _, s'⟩ <;>
      rw [hr] at hrun hok
    · exact hforeign hrun.1
    · exact nomatch hok
    · exact nomatch hok
  · rcases hr : (settlePendingInner checks).run fs disk with ⟨_ | e | _, s'⟩ <;>
      rw [hr] at hrun
    · exact absurd hrun.1 hforeign
    · exact ⟨e, rfl⟩
    · exact absurd (by rw [hr]) (run_ne_crash _ hfs disk)

def acceptingChecks : ConfigChecks where
  validateDocument _ := .ok ()
  encodedLength p := p.target.length
  recordId _ := "record"
  bytesId _ := "document"
  outerDecision _ := .ok false

/-- A data root with nothing but the pair. -/
def plainDisk (config previous : Option Bytes) : ConfigDisk :=
  ⟨config, previous, none, none, [], none⟩

/-- An edit from outside between the two writes of a publication is kept. -/
theorem settlePendingInner_keeps_outside_edit :
    ((settlePendingInner acceptingChecks).run [.none, .crashBefore]
      { plainDisk (some [9]) (some [1]) with
        pending := some (preparedRecord [2] true none (some [1]) none) }).2 =
      { plainDisk (some [9]) (some [1]) with
        pending := some (preparedRecord [2] true none (some [1]) none) } := by
  refine ((settlePendingInner_owns_what_it_changes acceptingChecks
    { plainDisk (some [9]) (some [1]) with
      pending := some (preparedRecord [2] true none (some [1]) none) }
    (preparedRecord [2] true none (some [1]) none) rfl rfl rfl _).2 fun h => ?_).1
  rcases h .config with h | ⟨-, h⟩
  · exact absurd h (by decide)
  · exact absurd h (by decide)

end ConfigStore

end DshNexus.Config
