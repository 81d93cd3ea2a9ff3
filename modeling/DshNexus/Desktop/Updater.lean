import DshNexus.Concurrent.System
import Mathlib

/-!
# The desktop updater

`apps/nexus-launcher/electron/updater.mjs`, with `coordinate` and `cancel` of `main.mjs`.  The
phase of the updater is written by the calls of the window, by the events of the updater library,
and by the calls that are awaited; the parts of the calls between two awaits are the steps.

1. The state: the calls that have not returned, the recovery, the flags of the main process, and
   the log of what was done to the coordination.
2. The steps.
3. `Orderly`: the logs in which every install is coordinated, launched, and cancelled in turn; what
   can be read off such a log.
4. `Calm`: the steps that leave an install under way alone.
5. `inv_step`: a calm step keeps the log orderly.
6. `coordinated_of_calm`: what holds in all runs of calm steps, and an error event that comes
   while a coordination is pending.
-/

namespace DshNexus.Desktop

/-! ## 1. The state -/

abbrev Version := String

inductive Phase where
  | idle
  | checking
  | available
  | downloading
  | ready
  | installing
  | error
  deriving DecidableEq, Repr

/-- `state` of a `DesktopUpdater`, without the percentage that is only shown. -/
structure UpdateState where
  enabled : Bool
  phase : Phase
  version : Option Version
  error : Option String
  deriving DecidableEq, Repr

/-- Where an install is: in `coordinate`, which may have been refused by the main process at once;
between its success and the continuation; after `quitAndInstall`; or after its failure. -/
inductive Stage where
  | coordinating (entered : Bool)
  | coordinated
  | launched
  | recovering
  deriving DecidableEq, Repr

structure Install where
  id : Nat
  stage : Stage
  deriving DecidableEq, Repr

/-- `this.recovery`: the error it was begun with, and whether `cancel` has been called yet. -/
structure Recovery where
  message : String
  started : Bool
  deriving DecidableEq, Repr

/-- What was done to the coordination, and what of it belongs to an install. -/
inductive Entry where
  | begun (id : Nat)
  | coordinated (id : Nat)
  /-- `quitAndInstall`, with the version that the library has downloaded -/
  | quit (id : Nat) (version : Option Version)
  | failed (id : Nat)
  | cancelStarted
  | ended (id : Nat)
  deriving DecidableEq, Repr

structure Updater where
  packaged : Bool
  state : UpdateState
  /-- the installs that have not ended; the next one's number -/
  installs : List Install
  next : Nat
  recovery : Option Recovery
  /-- the calls of `checkForUpdates` and `downloadUpdate` that are awaited -/
  checks : Nat
  downloads : Nat
  /-- the flags of the main process -/
  updating : Bool
  quitting : Bool
  /-- what the library has downloaded, and what the user has asked for -/
  downloaded : Option Version
  asked : List Version
  /-- the newest entry first -/
  log : List Entry
  deriving DecidableEq, Repr

/-- `constructor`. -/
def init (packaged enabled : Bool) : Updater where
  packaged := packaged
  state := ⟨enabled, .idle, none, none⟩
  installs := []
  next := 0
  recovery := none
  checks := 0
  downloads := 0
  updating := false
  quitting := false
  downloaded := none
  asked := []
  log := []

/-! ## 2. The steps -/

/-- `publish` of a phase and of an error. -/
def Updater.publish (u : Updater) (phase : Phase) (error : Option String) : Updater :=
  { u with state := { u.state with phase := phase, error := error } }

/-- `check`: the call up to `checkForUpdates`. -/
def check (u : Updater) (manual : Bool) : Except String Updater :=
  if u.packaged = false then throw "Update checks require an installed release"
  else if u.state.phase ∈ [.checking, .downloading, .installing, .ready] then pure u
  else if manual = false ∧ u.state.enabled = false then pure u
  else pure { u.publish .checking none with checks := u.checks + 1 }

/-- `download`: the call up to `downloadUpdate`. -/
def download (u : Updater) (version : Version) : Except String Updater :=
  if u.packaged = false then throw "Update downloads require an installed release"
  else if version = "" ∨ u.state.version ≠ some version then
    throw "Update selection changed; check again"
  else if u.state.phase = .downloading then pure u
  else if u.state.phase ≠ .available then
    throw "Check for an available update before downloading"
  else
    pure { u.publish .downloading none with
      downloads := u.downloads + 1
      asked := version :: u.asked }

/-- `install`, up to the first await of `coordinate`, which refuses while the main process has
another operation under way. -/
def install (u : Updater) (busy : Bool) : Except String Updater :=
  if u.state.phase ≠ .ready then throw "No verified update is ready"
  else
    let entered := !(u.updating || busy)
    pure { u.publish .installing none with
      installs := ⟨u.next, .coordinating entered⟩ :: u.installs
      next := u.next + 1
      updating := u.updating || entered
      log := .begun u.next :: u.log }

/-- `recoverInstall`: one recovery at a time; a later call is given the one under way. -/
def recoverInstall (u : Updater) (message : String) : Updater :=
  match u.recovery with
  | some _ => u
  | none => { u with recovery := some ⟨message, false⟩ }

/-- The stage of an install is replaced. -/
def Updater.setStage (u : Updater) (id : Nat) (stage : Stage) : Updater :=
  { u with installs := u.installs.map fun i => if i.id = id then ⟨id, stage⟩ else i }

def Updater.at (u : Updater) (stage : Stage) : List Nat :=
  (u.installs.filter fun i => i.stage = stage).map Install.id

/-- An error after `quitAndInstall` is the failure of that install. -/
def Updater.failLaunched (u : Updater) : Updater :=
  { u with
    installs := u.installs.map fun i => if i.stage = .launched then ⟨i.id, .recovering⟩ else i
    log := (u.at .launched).map Entry.failed ++ u.log }

/-- The listener of `error`. -/
def onError (u : Updater) (message : String) : Updater :=
  if u.state.phase = .installing then recoverInstall u.failLaunched message
  else u.failLaunched.publish .error (some message)

/-- `coordinate` has failed, or `quitAndInstall` has thrown: the `catch` of `install`. -/
def failInstall (u : Updater) (id : Nat) (message : String) : Updater :=
  let failed := u.setStage id .recovering
  recoverInstall { failed with log := .failed id :: failed.log } message

/-- `cancel` has returned or failed, which resets the flags of the main process: the phase is
published, and the installs that wait for the recovery end. -/
def endRecovery (u : Updater) (phase : Phase) (error : String) : Updater :=
  { u.publish phase (some error) with
    recovery := none
    updating := false
    quitting := false
    installs := u.installs.filter fun i => i.stage ≠ .recovering
    log := (u.at .recovering).map Entry.ended ++ u.log }

inductive Act where
  | check (manual : Bool)
  | download (version : Version)
  | install (busy : Bool)
  | recoverInstall (message : String)
  | setEnabled (enabled : Bool)
  | checkingForUpdate
  | updateAvailable (version : Version)
  | updateNotAvailable
  | downloadProgress
  | updateDownloaded (version : Version)
  | errorEvent (message : String)
  | checkReturns
  | checkFails (message : String)
  | downloadReturns
  | downloadFails (message : String)
  | coordinateSucceeds (id : Nat)
  | coordinateFails (id : Nat) (message : String)
  /-- the continuation of `install`: `quitAndInstall` is called -/
  | continues (id : Nat)
  | quitThrows (id : Nat) (message : String)
  /-- the first continuation of the recovery: `cancel` is called -/
  | cancelStarts
  | cancelReturns
  | cancelFails (message : String)
  deriving DecidableEq, Repr

def called (u : Updater) (result : Except String Updater) : Option Updater :=
  match result with
  | .ok u' => some u'
  | .error _ => some u

def step (u : Updater) : Act → Option Updater
  | .check manual => called u (check u manual)
  | .download version => called u (download u version)
  | .install busy => called u (install u busy)
  | .recoverInstall message => some (recoverInstall u.failLaunched message)
  | .setEnabled enabled => some { u with state := { u.state with enabled := enabled } }
  | .checkingForUpdate => some (u.publish .checking none)
  | .updateAvailable version =>
      some { u with state := { u.state with phase := .available, version := some version } }
  | .updateNotAvailable =>
      some { u with state := { u.state with phase := .idle, version := none } }
  | .downloadProgress => some { u with state := { u.state with phase := .downloading } }
  | .updateDownloaded version =>
      some { u with
        state := { u.state with phase := .ready, version := some version }
        downloaded := some version }
  | .errorEvent message => some (onError u message)
  | .checkReturns => if u.checks = 0 then none else some { u with checks := u.checks - 1 }
  | .checkFails message =>
      if u.checks = 0 then none
      else some { u.publish .error (some message) with checks := u.checks - 1 }
  | .downloadReturns =>
      if u.downloads = 0 then none else some { u with downloads := u.downloads - 1 }
  | .downloadFails message =>
      if u.downloads = 0 then none
      else some { u.publish .error (some message) with downloads := u.downloads - 1 }
  | .coordinateSucceeds id =>
      if id ∈ u.at (.coordinating true) then
        some { u.setStage id .coordinated with
          quitting := true
          log := .coordinated id :: u.log }
      else none
  | .coordinateFails id message =>
      if id ∈ u.at (.coordinating true) then
        some (failInstall { u with updating := false } id message)
      else if id ∈ u.at (.coordinating false) then some (failInstall u id message)
      else none
  | .continues id =>
      if id ∈ u.at .coordinated then
        some { u.setStage id .launched with log := .quit id u.downloaded :: u.log }
      else none
  | .quitThrows id message =>
      if id ∈ u.at .launched then some (failInstall u id message) else none
  | .cancelStarts =>
      match u.recovery with
      | some ⟨message, false⟩ =>
          some { u with recovery := some ⟨message, true⟩, log := .cancelStarted :: u.log }
      | _ => none
  | .cancelReturns =>
      match u.recovery with
      | some ⟨message, true⟩ => some (endRecovery u .ready message)
      | _ => none
  | .cancelFails failure =>
      match u.recovery with
      | some ⟨message, true⟩ => some (endRecovery u .error (message ++ "; " ++ failure))
      | _ => none

/-- The updater, between the constructor and any steps. -/
def system (packaged enabled : Bool) : Concurrent.System Updater Act where
  init := init packaged enabled
  step := step

/-! ## 3. Orderly logs -/

/-- Where the install stands that a log ends with. -/
inductive Standing where
  | idle
  | coordinating (id : Nat)
  | coordinated (id : Nat)
  | launched (id : Nat)
  | failed (id : Nat)
  | cancelling (id : Nat)

/-- **The purpose of the coordination**: one install after the other is begun; it is launched once
it is coordinated; and if it fails it is cancelled, and then over. -/
inductive Orderly : Standing → List Entry → Prop where
  | start : Orderly .idle []
  | begun {log : List Entry} {id : Nat} (h : Orderly .idle log) :
      Orderly (.coordinating id) (.begun id :: log)
  | coordinated {log : List Entry} {id : Nat} (h : Orderly (.coordinating id) log) :
      Orderly (.coordinated id) (.coordinated id :: log)
  | quit {log : List Entry} {id : Nat} {version : Option Version}
      (h : Orderly (.coordinated id) log) : Orderly (.launched id) (.quit id version :: log)
  | refused {log : List Entry} {id : Nat} (h : Orderly (.coordinating id) log) :
      Orderly (.failed id) (.failed id :: log)
  | failed {log : List Entry} {id : Nat} (h : Orderly (.launched id) log) :
      Orderly (.failed id) (.failed id :: log)
  | cancelStarted {log : List Entry} {id : Nat} (h : Orderly (.failed id) log) :
      Orderly (.cancelling id) (.cancelStarted :: log)
  | ended {log : List Entry} {id : Nat} (h : Orderly (.cancelling id) log) :
      Orderly .idle (.ended id :: log)

variable {t : Standing}

theorem Orderly.tail {e : Entry} {log : List Entry} (h : Orderly t (e :: log)) : ∃ t',
    Orderly t' log := by
  cases h with
  | begun h => exact ⟨_, h⟩
  | coordinated h => exact ⟨_, h⟩
  | quit h => exact ⟨_, h⟩
  | refused h => exact ⟨_, h⟩
  | failed h => exact ⟨_, h⟩
  | cancelStarted h => exact ⟨_, h⟩
  | ended h => exact ⟨_, h⟩

variable {newer older : List Entry}

theorem Orderly.of_append (h : Orderly t (newer ++ older)) : ∃ t', Orderly t' older := by
  induction newer generalizing t with
  | nil => exact ⟨t, h⟩
  | cons e newer ih =>
    obtain ⟨t', h'⟩ := h.tail
    exact ih h'

theorem Orderly.before_quit {id : Nat} {version : Option Version}
    (h : Orderly t (newer ++ .quit id version :: older)) : ∃ rest, older =
    .coordinated id :: .begun id :: rest := by
  obtain ⟨t', h'⟩ := h.of_append
  cases h' with
  | quit hcoordinated =>
    cases hcoordinated with
    | coordinated hcoordinating =>
      cases hcoordinating with
      | begun hidle => exact ⟨_, rfl⟩

theorem Orderly.after_failed {id : Nat} (h : Orderly t (newer ++ .failed id :: older)) : newer =
    [] ∨ newer = [.cancelStarted] ∨ ∃ rest, newer = rest ++ [.ended id, .cancelStarted] := by
  have hfailed : ∀ {t' : Standing}, Orderly t' (.failed id :: older) → t' = .failed id := by
    intro t' h'
    cases h' <;> rfl
  rcases List.eq_nil_or_concat newer with rfl | ⟨rest, first, rfl⟩
  · exact Or.inl rfl
  · right
    rw [List.concat_eq_append, List.append_assoc, List.singleton_append] at h
    have hfirst : ∀ {t' : Standing}, Orderly t' (first :: .failed id :: older) →
        first = .cancelStarted ∧ t' = .cancelling id := by
      intro t' h'
      cases h' with
      | begun h' => cases hfailed h'
      | coordinated h' => cases hfailed h'
      | quit h' => cases hfailed h'
      | refused h' => cases hfailed h'
      | failed h' => cases hfailed h'
      | cancelStarted h' =>
        cases hfailed h'
        exact ⟨rfl, rfl⟩
      | ended h' => cases hfailed h'
    obtain ⟨t', h'⟩ := h.of_append
    obtain ⟨rfl, rfl⟩ := hfirst h'
    rcases List.eq_nil_or_concat rest with rfl | ⟨rest, second, rfl⟩
    · exact Or.inl rfl
    · right
      rw [List.concat_eq_append, List.append_assoc, List.singleton_append] at h
      obtain ⟨t'', h''⟩ := h.of_append
      refine ⟨rest, ?_⟩
      cases h'' with
      | begun h' => cases (hfirst h').2
      | coordinated h' => cases (hfirst h').2
      | quit h' => cases (hfirst h').2
      | refused h' => cases (hfirst h').2
      | failed h' => cases (hfirst h').2
      | cancelStarted h' => cases (hfirst h').2
      | ended h' =>
        cases (hfirst h').2
        simp

theorem Orderly.before_cancel (h : Orderly t (newer ++ .cancelStarted :: older)) : ∃ id rest,
    older = .failed id :: rest := by
  obtain ⟨t', h'⟩ := h.of_append
  cases h' with
  | cancelStarted hfailed =>
    cases hfailed with
    | refused h => exact ⟨_, _, rfl⟩
    | failed h => exact ⟨_, _, rfl⟩

/-! ## 4. Calm steps -/

/-- The installs that have come past `quitAndInstall`, or have failed. -/
def Updater.Past (u : Updater) : Prop :=
  ∀ i ∈ u.installs, i.stage = .launched ∨ i.stage = .recovering

instance decidablePast (u : Updater) : Decidable u.Past :=
  inferInstanceAs (Decidable (∀ i ∈ u.installs, _))

/-- **The condition on a step.**  An error comes, and a recovery is asked for, only if no
coordination is pending (and for a recovery an install must have been launched or have failed); no
other event of the library and no failure of an earlier call comes while an install is under way;
and what the library downloads is what the user asked for. -/
def Calm (u : Updater) : Act → Prop
  | .errorEvent _ => u.Past
  | .recoverInstall _ => u.Past ∧ u.installs ≠ []
  | .checkingForUpdate => u.installs = []
  | .updateAvailable _ => u.installs = []
  | .updateNotAvailable => u.installs = []
  | .downloadProgress => u.installs = []
  | .updateDownloaded version => u.installs = [] ∧ version ∈ u.asked
  | .checkFails _ => u.installs = []
  | .downloadFails _ => u.installs = []
  | _ => True

instance decidableCalm (u : Updater) : (a : Act) → Decidable (Calm u a)
  | .errorEvent _ => inferInstanceAs (Decidable u.Past)
  | .recoverInstall _ => inferInstanceAs (Decidable (u.Past ∧ u.installs ≠ []))
  | .checkingForUpdate => inferInstanceAs (Decidable (u.installs = []))
  | .updateAvailable _ => inferInstanceAs (Decidable (u.installs = []))
  | .updateNotAvailable => inferInstanceAs (Decidable (u.installs = []))
  | .downloadProgress => inferInstanceAs (Decidable (u.installs = []))
  | .updateDownloaded version =>
      inferInstanceAs (Decidable (u.installs = [] ∧ version ∈ u.asked))
  | .checkFails _ => inferInstanceAs (Decidable (u.installs = []))
  | .downloadFails _ => inferInstanceAs (Decidable (u.installs = []))
  | .check _ | .download _ | .install _ | .setEnabled _ | .checkReturns | .downloadReturns
  | .coordinateSucceeds _ | .coordinateFails _ _ | .continues _ | .quitThrows _ _
  | .cancelStarts | .cancelReturns | .cancelFails _ => isTrue trivial

/-! ## 5. The invariant -/

/-- The installs and the recovery at a standing.  While there is an install, the phase says so. -/
inductive Stands (u : Updater) : Standing → Prop where
  | idle (installs : u.installs = []) (recovery : u.recovery = none)
      (phase : u.state.phase ≠ .installing) : Stands u .idle
  | coordinating (id : Nat) (entered : Bool)
      (installs : u.installs = [⟨id, .coordinating entered⟩]) (recovery : u.recovery = none)
      (phase : u.state.phase = .installing) : Stands u (.coordinating id)
  | coordinated (id : Nat) (installs : u.installs = [⟨id, .coordinated⟩])
      (recovery : u.recovery = none) (phase : u.state.phase = .installing) :
      Stands u (.coordinated id)
  | launched (id : Nat) (installs : u.installs = [⟨id, .launched⟩]) (recovery : u.recovery = none)
      (phase : u.state.phase = .installing) : Stands u (.launched id)
  | failed (id : Nat) (message : String) (installs : u.installs = [⟨id, .recovering⟩])
      (recovery : u.recovery = some ⟨message, false⟩) (phase : u.state.phase = .installing) :
      Stands u (.failed id)
  | cancelling (id : Nat) (message : String) (installs : u.installs = [⟨id, .recovering⟩])
      (recovery : u.recovery = some ⟨message, true⟩) (phase : u.state.phase = .installing) :
      Stands u (.cancelling id)

/-- The log is orderly, and only what was asked for was downloaded and launched. -/
structure Inv (u : Updater) : Prop where
  standing : ∃ t, Stands u t ∧ Orderly t u.log
  downloaded : ∀ v, u.downloaded = some v → v ∈ u.asked
  launched : ∀ id v, .quit id (some v) ∈ u.log → v ∈ u.asked

theorem inv_init (packaged enabled : Bool) : Inv (init packaged enabled) where
  standing := ⟨.idle, .idle rfl rfl (by simp [init]), .start⟩
  downloaded := by
    intro v h
    cases h
  launched := by
    intro id v h
    cases h

variable {u : Updater}

theorem Stands.installs_nil (h : Stands u t) (hphase : u.state.phase ≠ .installing) : t = .idle ∧
    u.installs = [] ∧ u.recovery = none := by
  cases h with
  | idle installs recovery phase => exact ⟨rfl, installs, recovery⟩
  | coordinating id entered installs recovery phase => exact absurd phase hphase
  | coordinated id installs recovery phase => exact absurd phase hphase
  | launched id installs recovery phase => exact absurd phase hphase
  | failed id message installs recovery phase => exact absurd phase hphase
  | cancelling id message installs recovery phase => exact absurd phase hphase

theorem Stands.length_le (h : Stands u t) : u.installs.length ≤ 1 := by
  cases h with
  | idle installs recovery phase => simp [installs]
  | coordinating id entered installs recovery phase => simp [installs]
  | coordinated id installs recovery phase => simp [installs]
  | launched id installs recovery phase => simp [installs]
  | failed id message installs recovery phase => simp [installs]
  | cancelling id message installs recovery phase => simp [installs]

theorem Stands.frame {u u' : Updater} (h : Stands u t) (hinstalls : u'.installs = u.installs)
    (hrecovery : u'.recovery = u.recovery) (hphase :
    (u.installs = [] ∧ u'.state.phase ≠ .installing) ∨ u'.state.phase = u.state.phase) :
    Stands u' t := by
  cases h with
  | idle installs recovery phase =>
    refine .idle (hinstalls.trans installs) (hrecovery.trans recovery) ?_
    rcases hphase with hphase | hsame
    · exact hphase.2
    · rw [hsame]
      exact phase
  | coordinating id entered installs recovery phase =>
    have hsame := hphase.resolve_left (by simp [installs])
    exact .coordinating id entered (hinstalls.trans installs) (hrecovery.trans recovery)
      (hsame.trans phase)
  | coordinated id installs recovery phase =>
    have hsame := hphase.resolve_left (by simp [installs])
    exact .coordinated id (hinstalls.trans installs) (hrecovery.trans recovery) (hsame.trans phase)
  | launched id installs recovery phase =>
    have hsame := hphase.resolve_left (by simp [installs])
    exact .launched id (hinstalls.trans installs) (hrecovery.trans recovery) (hsame.trans phase)
  | failed id message installs recovery phase =>
    have hsame := hphase.resolve_left (by simp [installs])
    exact .failed id message (hinstalls.trans installs) (hrecovery.trans recovery)
      (hsame.trans phase)
  | cancelling id message installs recovery phase =>
    have hsame := hphase.resolve_left (by simp [installs])
    exact .cancelling id message (hinstalls.trans installs) (hrecovery.trans recovery)
      (hsame.trans phase)

theorem Inv.frame {u u' : Updater} (h : Inv u) (hinstalls : u'.installs = u.installs)
    (hrecovery : u'.recovery = u.recovery) (hlog : u'.log = u.log)
    (hphase : (u.installs = [] ∧ u'.state.phase ≠ .installing) ∨
      u'.state.phase = u.state.phase)
    (hdownloaded : u'.downloaded = u.downloaded) (hasked : u.asked ⊆ u'.asked) : Inv u' := by
  obtain ⟨t, hstands, horderly⟩ := h.standing
  refine ⟨⟨t, hstands.frame hinstalls hrecovery hphase, hlog ▸ horderly⟩, ?_, ?_⟩
  · intro v hv
    exact hasked (h.downloaded v (hdownloaded ▸ hv))
  · intro id v hv
    exact hasked (h.launched id v (hlog ▸ hv))

theorem Inv.advance {u u' : Updater} (h : Inv u) (entries : List Entry) (hstands : Stands u' t)
    (hlog : u'.log = entries ++ u.log) (horderly : Orderly t u'.log)
    (hquit : ∀ id v, .quit id (some v) ∈ entries → u.downloaded = some v)
    (hdownloaded : u'.downloaded = u.downloaded) (hasked : u'.asked = u.asked) : Inv u' := by
  refine ⟨⟨t, hstands, horderly⟩, ?_, ?_⟩
  · intro v hv
    rw [hasked]
    exact h.downloaded v (hdownloaded ▸ hv)
  · intro id v hv
    rw [hasked]
    rw [hlog] at hv
    rcases List.mem_append.mp hv with hv | hv
    · exact h.downloaded v (hquit id v hv)
    · exact h.launched id v hv

theorem inv_check {u u' : Updater} {manual : Bool} (h : Inv u) (hcall : check u manual = .ok u') :
    Inv u' := by
  unfold check at hcall
  split at hcall
  · cases hcall
  · split at hcall
    · cases hcall
      exact h
    · next hphase =>
      split at hcall
      · cases hcall
        exact h
      · cases hcall
        obtain ⟨t, hstands, -⟩ := h.standing
        have hnil := (hstands.installs_nil (by grind)).2.1
        exact h.frame rfl rfl rfl (Or.inl ⟨hnil, by simp [Updater.publish]⟩) rfl
          (List.Subset.refl _)

theorem inv_download {u u' : Updater} {version : Version} (h : Inv u)
    (hcall : download u version = .ok u') : Inv u' := by
  unfold download at hcall
  split at hcall
  · cases hcall
  · split at hcall
    · cases hcall
    · split at hcall
      · cases hcall
        exact h
      · split at hcall
        · cases hcall
        · next hphase =>
          cases hcall
          obtain ⟨t, hstands, -⟩ := h.standing
          have hnil := (hstands.installs_nil (by grind)).2.1
          exact h.frame rfl rfl rfl (Or.inl ⟨hnil, by simp [Updater.publish]⟩) rfl
            (List.subset_cons_self _ _)

theorem inv_install {u u' : Updater} {busy : Bool} (h : Inv u)
    (hcall : install u busy = .ok u') : Inv u' := by
  unfold install at hcall
  split at hcall
  · cases hcall
  · next hphase =>
    cases hcall
    obtain ⟨t, hstands, horderly⟩ := h.standing
    obtain ⟨rfl, hnil, hnone⟩ := hstands.installs_nil (by grind)
    exact h.advance [.begun u.next] (.coordinating u.next _ (by rw [hnil]) hnone rfl) rfl
      (.begun horderly) (by simp) rfl rfl

theorem mem_at {id : Nat} {stage : Stage} : id ∈ u.at stage ↔ ⟨id, stage⟩ ∈ u.installs := by
  unfold Updater.at
  simp only [List.mem_map, List.mem_filter, decide_eq_true_eq]
  constructor
  · rintro ⟨i, ⟨hmem, rfl⟩, rfl⟩
    exact hmem
  · intro hmem
    exact ⟨_, ⟨hmem, rfl⟩, rfl⟩

theorem Stands.of_coordinating {id : Nat} {entered : Bool} (h : Stands u t)
    (hmem : ⟨id, .coordinating entered⟩ ∈ u.installs) : t = .coordinating id ∧ u.installs =
    [⟨id, .coordinating entered⟩] ∧ u.recovery = none ∧ u.state.phase = .installing := by
  cases h with
  | idle installs recovery phase => simp [installs] at hmem
  | coordinating id' entered' installs recovery phase =>
    rw [installs, List.mem_singleton] at hmem
    obtain ⟨rfl, hstage⟩ := Install.mk.inj hmem
    obtain rfl := Stage.coordinating.inj hstage
    exact ⟨rfl, installs, recovery, phase⟩
  | coordinated id' installs recovery phase => simp [installs] at hmem
  | launched id' installs recovery phase => simp [installs] at hmem
  | failed id' message installs recovery phase => simp [installs] at hmem
  | cancelling id' message installs recovery phase => simp [installs] at hmem

theorem Stands.of_coordinated {id : Nat} (h : Stands u t) (hmem : ⟨id, .coordinated⟩ ∈ u.installs) :
    t = .coordinated id ∧ u.installs = [⟨id, .coordinated⟩] ∧ u.recovery = none ∧ u.state.phase =
    .installing := by
  cases h with
  | idle installs recovery phase => simp [installs] at hmem
  | coordinating id' entered' installs recovery phase => simp [installs] at hmem
  | coordinated id' installs recovery phase =>
    rw [installs, List.mem_singleton] at hmem
    obtain ⟨rfl, -⟩ := Install.mk.inj hmem
    exact ⟨rfl, installs, recovery, phase⟩
  | launched id' installs recovery phase => simp [installs] at hmem
  | failed id' message installs recovery phase => simp [installs] at hmem
  | cancelling id' message installs recovery phase => simp [installs] at hmem

theorem Stands.of_launched {id : Nat} (h : Stands u t) (hmem : ⟨id, .launched⟩ ∈ u.installs) : t =
    .launched id ∧ u.installs = [⟨id, .launched⟩] ∧ u.recovery = none ∧ u.state.phase =
    .installing := by
  cases h with
  | idle installs recovery phase => simp [installs] at hmem
  | coordinating id' entered' installs recovery phase => simp [installs] at hmem
  | coordinated id' installs recovery phase => simp [installs] at hmem
  | launched id' installs recovery phase =>
    rw [installs, List.mem_singleton] at hmem
    obtain ⟨rfl, -⟩ := Install.mk.inj hmem
    exact ⟨rfl, installs, recovery, phase⟩
  | failed id' message installs recovery phase => simp [installs] at hmem
  | cancelling id' message installs recovery phase => simp [installs] at hmem

theorem failLaunched_eq_self (h : ∀ i ∈ u.installs, i.stage ≠ .launched) : u.failLaunched = u := by
  have hmap : (u.installs.map fun i =>
      if i.stage = .launched then (⟨i.id, .recovering⟩ : Install) else i) = u.installs := by
    have hid : (u.installs.map fun i =>
        if i.stage = .launched then (⟨i.id, .recovering⟩ : Install) else i) =
          u.installs.map id := List.map_congr_left fun i hmem => if_neg (h i hmem)
    rw [hid, List.map_id]
  have hat : u.at .launched = [] := by
    unfold Updater.at
    rw [List.map_eq_nil_iff, List.filter_eq_nil_iff]
    intro i hmem
    simpa using h i hmem
  unfold Updater.failLaunched
  rw [hmap, hat]
  rfl

theorem inv_recover (message : String) (h : Inv u) (hpast : u.Past) (hne : u.installs ≠ []) :
    Inv (recoverInstall u.failLaunched message) := by
  obtain ⟨t, hstands, horderly⟩ := h.standing
  have hjoined : ∀ {id : Nat} {r : Recovery}, u.installs = [⟨id, .recovering⟩] →
      u.recovery = some r → Inv (recoverInstall u.failLaunched message) := by
    intro id r hinstalls hrecovery
    rw [failLaunched_eq_self (by simp [hinstalls]), recoverInstall, hrecovery]
    exact h
  cases hstands with
  | idle installs recovery phase => exact absurd installs hne
  | coordinating id entered installs recovery phase => simp [Updater.Past, installs] at hpast
  | coordinated id installs recovery phase => simp [Updater.Past, installs] at hpast
  | launched id installs recovery phase =>
    have hfailed : u.failLaunched =
        { u with installs := [⟨id, .recovering⟩], log := .failed id :: u.log } := by
      unfold Updater.failLaunched Updater.at
      simp [installs]
    rw [hfailed, recoverInstall]
    dsimp only
    rw [recovery]
    exact h.advance [.failed id] (.failed id message rfl rfl phase) rfl (.failed horderly)
      (by simp) rfl rfl
  | failed id other installs recovery phase => exact hjoined installs recovery
  | cancelling id other installs recovery phase => exact hjoined installs recovery

theorem inv_onError (message : String) (h : Inv u) (hpast : u.Past) : Inv (onError u message) := by
  unfold onError
  obtain ⟨t, hstands, -⟩ := h.standing
  split
  · next hphase =>
    refine inv_recover message h hpast ?_
    intro hnil
    cases hstands with
    | idle installs recovery phase => exact phase hphase
    | coordinating id entered installs recovery phase => simp [installs] at hnil
    | coordinated id installs recovery phase => simp [installs] at hnil
    | launched id installs recovery phase => simp [installs] at hnil
    | failed id message installs recovery phase => simp [installs] at hnil
    | cancelling id message installs recovery phase => simp [installs] at hnil
  · next hphase =>
    obtain ⟨-, hnil, -⟩ := hstands.installs_nil hphase
    rw [failLaunched_eq_self (by simp [hnil])]
    exact h.frame rfl rfl rfl (Or.inl ⟨hnil, by simp [Updater.publish]⟩) rfl (List.Subset.refl _)

theorem inv_failInstall {u u' : Updater} {id : Nat} {stage : Stage} (message : String)
    (h : Inv u) (hinstalls : u.installs = [⟨id, stage⟩]) (hrecovery : u.recovery = none)
    (hphase : u.state.phase = .installing) (horderly : Orderly (.failed id) (.failed id :: u.log))
    (hsame : u' = { u with updating := u'.updating }) : Inv (failInstall u' id message) := by
  rw [hsame]
  unfold failInstall Updater.setStage recoverInstall
  dsimp only
  rw [hrecovery, hinstalls]
  exact h.advance [.failed id] (.failed id message (by simp) rfl hphase) rfl horderly
    (by simp) rfl rfl

theorem inv_endRecovery {phase : Phase} {error message : String} (h : Inv u)
    (hphase : phase ≠ .installing) (hrecovery : u.recovery = some ⟨message, true⟩) :
    Inv (endRecovery u phase error) := by
  obtain ⟨t, hstands, horderly⟩ := h.standing
  cases hstands with
  | idle installs recovery phase => simp [hrecovery] at recovery
  | coordinating id entered installs recovery phase => simp [hrecovery] at recovery
  | coordinated id installs recovery phase => simp [hrecovery] at recovery
  | launched id installs recovery phase => simp [hrecovery] at recovery
  | failed id other installs recovery phase => simp [hrecovery] at recovery
  | cancelling id other installs recovery phase' =>
    have hended : (u.at .recovering).map Entry.ended ++ u.log = .ended id :: u.log := by
      unfold Updater.at
      simp [installs]
    unfold endRecovery
    rw [hended, installs]
    exact h.advance [.ended id] (.idle (by simp) rfl hphase) rfl (.ended horderly) (by simp) rfl rfl

/-- **A calm step keeps the log orderly.** -/
theorem inv_step (u : Updater) (a : Act) (u' : Updater) (h : Inv u) (hcalm : Calm u a)
    (hstep : step u a = some u') : Inv u' := by
  have hbeside : ∀ {v : Updater}, v.installs = u.installs → v.recovery = u.recovery →
      v.log = u.log → v.state.phase = u.state.phase → v.downloaded = u.downloaded →
        v.asked = u.asked → Inv v :=
    fun hi hr hl hp hd ha => h.frame hi hr hl (Or.inr hp) hd (ha ▸ List.Subset.refl _)
  obtain ⟨t, hstands, horderly⟩ := h.standing
  cases a with
  | check manual =>
    simp only [step, called] at hstep
    cases hcall : check u manual with
    | error e =>
      rw [hcall] at hstep
      exact Option.some.inj hstep ▸ h
    | ok v =>
      rw [hcall] at hstep
      exact Option.some.inj hstep ▸ inv_check h hcall
  | download version =>
    simp only [step, called] at hstep
    cases hcall : download u version with
    | error e =>
      rw [hcall] at hstep
      exact Option.some.inj hstep ▸ h
    | ok v =>
      rw [hcall] at hstep
      exact Option.some.inj hstep ▸ inv_download h hcall
  | install busy =>
    simp only [step, called] at hstep
    cases hcall : install u busy with
    | error e =>
      rw [hcall] at hstep
      exact Option.some.inj hstep ▸ h
    | ok v =>
      rw [hcall] at hstep
      exact Option.some.inj hstep ▸ inv_install h hcall
  | recoverInstall message =>
    exact Option.some.inj hstep ▸ inv_recover message h hcalm.1 hcalm.2
  | setEnabled enabled =>
    exact Option.some.inj hstep ▸ hbeside rfl rfl rfl rfl rfl rfl
  | checkingForUpdate =>
    exact Option.some.inj hstep ▸
      h.frame rfl rfl rfl (Or.inl ⟨hcalm, by simp [Updater.publish]⟩) rfl (List.Subset.refl _)
  | updateAvailable version =>
    exact Option.some.inj hstep ▸
      h.frame rfl rfl rfl (Or.inl ⟨hcalm, by simp⟩) rfl (List.Subset.refl _)
  | updateNotAvailable =>
    exact Option.some.inj hstep ▸
      h.frame rfl rfl rfl (Or.inl ⟨hcalm, by simp⟩) rfl (List.Subset.refl _)
  | downloadProgress =>
    exact Option.some.inj hstep ▸
      h.frame rfl rfl rfl (Or.inl ⟨hcalm, by simp⟩) rfl (List.Subset.refl _)
  | updateDownloaded version =>
    obtain ⟨hnil, hasked⟩ := hcalm
    cases Option.some.inj hstep
    refine ⟨⟨t, hstands.frame rfl rfl (Or.inl ⟨hnil, by simp⟩), horderly⟩, ?_, h.launched⟩
    intro v hv
    exact Option.some.inj hv ▸ hasked
  | errorEvent message =>
    exact Option.some.inj hstep ▸ inv_onError message h hcalm
  | checkReturns =>
    simp only [step, Option.ite_none_left_eq_some, Option.some.injEq] at hstep
    exact hstep.2 ▸ hbeside rfl rfl rfl rfl rfl rfl
  | checkFails message =>
    simp only [step, Option.ite_none_left_eq_some, Option.some.injEq] at hstep
    exact hstep.2 ▸
      h.frame rfl rfl rfl (Or.inl ⟨hcalm, by simp [Updater.publish]⟩) rfl (List.Subset.refl _)
  | downloadReturns =>
    simp only [step, Option.ite_none_left_eq_some, Option.some.injEq] at hstep
    exact hstep.2 ▸ hbeside rfl rfl rfl rfl rfl rfl
  | downloadFails message =>
    simp only [step, Option.ite_none_left_eq_some, Option.some.injEq] at hstep
    exact hstep.2 ▸
      h.frame rfl rfl rfl (Or.inl ⟨hcalm, by simp [Updater.publish]⟩) rfl (List.Subset.refl _)
  | coordinateSucceeds id =>
    simp only [step, Option.ite_none_right_eq_some, Option.some.injEq, mem_at] at hstep
    obtain ⟨hmem, rfl⟩ := hstep
    obtain ⟨rfl, hinstalls, hrecovery, hphase⟩ := hstands.of_coordinating hmem
    refine h.advance [.coordinated id] (.coordinated id ?_ hrecovery hphase) rfl
      (.coordinated horderly) (by simp) rfl rfl
    simp [Updater.setStage, hinstalls]
  | coordinateFails id message =>
    simp only [step, mem_at] at hstep
    split at hstep
    · next hmem =>
      obtain ⟨rfl, hinstalls, hrecovery, hphase⟩ := hstands.of_coordinating hmem
      exact Option.some.inj hstep ▸
        inv_failInstall message h hinstalls hrecovery hphase (.refused horderly) rfl
    · simp only [Option.ite_none_right_eq_some, Option.some.injEq] at hstep
      obtain ⟨hmem, rfl⟩ := hstep
      obtain ⟨rfl, hinstalls, hrecovery, hphase⟩ := hstands.of_coordinating hmem
      exact inv_failInstall message h hinstalls hrecovery hphase (.refused horderly) rfl
  | continues id =>
    simp only [step, Option.ite_none_right_eq_some, Option.some.injEq, mem_at] at hstep
    obtain ⟨hmem, rfl⟩ := hstep
    obtain ⟨rfl, hinstalls, hrecovery, hphase⟩ := hstands.of_coordinated hmem
    refine h.advance [.quit id u.downloaded] (.launched id ?_ hrecovery hphase) rfl
      (.quit horderly) ?_ rfl rfl
    · simp [Updater.setStage, hinstalls]
    · intro id' v hv
      rw [List.mem_singleton] at hv
      exact (Entry.quit.inj hv).2.symm
  | quitThrows id message =>
    simp only [step, Option.ite_none_right_eq_some, Option.some.injEq, mem_at] at hstep
    obtain ⟨hmem, rfl⟩ := hstep
    obtain ⟨rfl, hinstalls, hrecovery, hphase⟩ := hstands.of_launched hmem
    exact inv_failInstall message h hinstalls hrecovery hphase (.failed horderly) rfl
  | cancelStarts =>
    simp only [step] at hstep
    split at hstep
    · next message hrecovery =>
      cases Option.some.inj hstep
      cases hstands with
      | idle installs recovery phase => simp [hrecovery] at recovery
      | coordinating id entered installs recovery phase => simp [hrecovery] at recovery
      | coordinated id installs recovery phase => simp [hrecovery] at recovery
      | launched id installs recovery phase => simp [hrecovery] at recovery
      | failed id other installs recovery phase =>
        exact h.advance [.cancelStarted] (.cancelling id message installs rfl phase) rfl
          (.cancelStarted horderly) (by simp) rfl rfl
      | cancelling id other installs recovery phase => simp [hrecovery] at recovery
    · cases hstep
  | cancelReturns =>
    simp only [step] at hstep
    split at hstep
    · next message hrecovery =>
      exact Option.some.inj hstep ▸ inv_endRecovery h (by decide) hrecovery
    · cases hstep
  | cancelFails failure =>
    simp only [step] at hstep
    split at hstep
    · next message hrecovery =>
      exact Option.some.inj hstep ▸ inv_endRecovery h (by decide) hrecovery
    · cases hstep

/-! ## 6. Runs -/

/-- **The updater restarts only under its own coordination.** -/
structure Coordinated (u : Updater) : Prop where
  /-- `quitAndInstall` comes right after the install has obtained its coordination: no cancel has
  been started since it was begun. -/
  held : ∀ newer older id version, u.log = newer ++ .quit id version :: older →
    ∃ rest, older = .coordinated id :: .begun id :: rest
  /-- At most one install is under way. -/
  single : u.installs.length ≤ 1
  /-- A failure of an install is followed by one cancel, and that by the end of the install; and
  nothing else is cancelled. -/
  cancelled : ∀ newer older id, u.log = newer ++ .failed id :: older →
    newer = [] ∨ newer = [.cancelStarted] ∨ ∃ rest, newer = rest ++ [.ended id, .cancelStarted]
  cancels : ∀ newer older, u.log = newer ++ .cancelStarted :: older →
    ∃ id rest, older = .failed id :: rest
  /-- The version that is installed was asked for. -/
  asked : ∀ id version, .quit id (some version) ∈ u.log → version ∈ u.asked

theorem Inv.coordinated (h : Inv u) : Coordinated u := by
  obtain ⟨t, hstands, horderly⟩ := h.standing
  refine ⟨?_, hstands.length_le, ?_, ?_, h.launched⟩
  · intro newer older id version hlog
    exact (hlog ▸ horderly).before_quit
  · intro newer older id hlog
    exact (hlog ▸ horderly).after_failed
  · intro newer older hlog
    exact (hlog ▸ horderly).before_cancel

/-- **Every run of calm steps** restarts only under its own coordination. -/
theorem coordinated_of_calm {packaged enabled : Bool} {acts : List Act} {u : Updater}
    (hcalm : (system packaged enabled).RunMeets Calm acts (init packaged enabled))
    (hrun : (system packaged enabled).run acts (init packaged enabled) = some u) :
    Coordinated u := by
  have hinv := Concurrent.System.run_invariant inv_step acts _ _ (inv_init packaged enabled)
    hcalm hrun
  exact hinv.coordinated

/-- A download, an install whose installer reports an error, and another that is launched. -/
def retriedInstall : List Act :=
  [.check true, .updateAvailable "0.2.0", .checkReturns, .download "0.2.0", .downloadProgress,
    .updateDownloaded "0.2.0", .downloadReturns, .install false, .coordinateSucceeds 0,
    .continues 0, .errorEvent "installer failed", .cancelStarts, .cancelReturns, .install false,
    .coordinateSucceeds 1, .continues 1]

theorem coordinated_retriedInstall :
    ∃ u, (system true true).run retriedInstall (init true true) = some u ∧ Coordinated u := by
  have hcalm : (system true true).RunMeets Calm retriedInstall (init true true) := by decide
  refine ⟨_, rfl, coordinated_of_calm hcalm rfl⟩

/-- An update that is downloaded and ready. -/
def download020 : List Act :=
  [.check true, .updateAvailable "0.2.0", .checkReturns, .download "0.2.0",
    .updateDownloaded "0.2.0", .downloadReturns]

/-- An error of the library while the coordination of an install is pending. -/
def erroneousInstall : List Act :=
  download020 ++
    [.install false, .errorEvent "offline", .coordinateSucceeds 0, .cancelStarts, .continues 0]

/-- The same, and the recovery is over before the coordination succeeds. -/
def overlappingInstalls : List Act :=
  download020 ++
    [.install false, .errorEvent "offline", .cancelStarts, .cancelReturns, .install false]

/-- **`quitAndInstall` after a cancel has been started**: the recovery that the error began is not
noticed by the install.  And when the recovery is over first, the next install begins beside the
one that is still being coordinated. -/
theorem not_coordinated_erroneousInstall :
    (∃ u, (system true true).run erroneousInstall (init true true) = some u ∧
      u.log = [.quit 0 (some "0.2.0"), .cancelStarted, .coordinated 0, .begun 0] ∧
        ¬ Coordinated u) ∧
    ∃ u, (system true true).run overlappingInstalls (init true true) = some u ∧
      u.installs = [⟨1, .coordinating true⟩, ⟨0, .coordinating true⟩] ∧ ¬ Coordinated u := by
  constructor
  · refine ⟨_, rfl, by decide, ?_⟩
    intro h
    obtain ⟨rest, hrest⟩ := h.held [] _ 0 (some "0.2.0") rfl
    cases hrest
  · refine ⟨_, rfl, by decide, ?_⟩
    intro h
    exact absurd h.single (by decide)

end DshNexus.Desktop
