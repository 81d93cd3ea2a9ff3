import DshNexus.Snapshot.Staging

/-!
# Filling a staging directory

The middle of `capture` in `crates/nexus-snapshots/src/lib.rs` is the same for a healthy and
for a manual snapshot, and only the staging directory differs.  `fillDirectory` is that part
over any store in which one directory can be changed; `fillStaging_eq` says that a healthy
capture runs it on `.next-slot-i`.

* `returns_fillDirectory`: without faults the directory ends as `stagedDirectory`, with the
  blobs of the captured files and the encoded manifest.
* `within_fillDirectory`: with or without faults nothing else is touched.
-/

namespace DshNexus.Snapshot

open Durable Program

section Filling

variable {σ δ : Type} (modify : (SnapshotDirectory → SnapshotDirectory) → σ → σ)

/-- `write_durable` of a blob of a staging directory. -/
def writeBlobIn (i : FileIndex) (bytes : Bytes) : Program σ SnapshotError Unit := do
  Program.durable (.io "create temporary file") (modify (·.setBlob temporaryName []))
  tryCatch
    (do
      Program.durable (.io "write temporary file") (modify (·.setBlob temporaryName bytes))
      Program.durable (.io "durably move") (modify fun directory =>
        (directory.unlink (.blob temporaryName)).setBlob (toString i.val) bytes))
    fun e => do
      Program.ignoreError (Program.durable (.io "remove temporary file")
        (modify (·.unlink (.blob temporaryName))))
      throw e

/-- The middle of `capture`: from the directory `files` to the sync of the staging directory. -/
def fillDirectory (env : SnapshotEnvironment δ) (manifestOf : CapturedFiles δ → SnapshotManifest δ)
    (sources : FileIndex → Option StoredFile) : Program σ SnapshotError (SnapshotManifest δ) := do
  Program.durable (.io "create directory") (modify fun directory =>
    { directory with files := some [] })
  let files ← Program.ofExcept
    ((List.finRange 7).foldlM (captureFile env sources) CapturedFiles.empty)
  let manifest := manifestOf files
  let encoded ← Program.ofExcept ((env.encodeManifest manifest).mapError fun message =>
    .invalidManifest ("cannot encode new manifest: " ++ message))
  Program.attempt (.io "snapshot target-volume space")
  files.payloads.forM fun payload => writeBlobIn modify payload.1 payload.2
  Program.attempt (.io "write temporary file")
  Program.durable (.io "durably move") (modify fun directory =>
    { directory with manifest := some encoded })
  Program.attempt (.io "sync directory")
  pure manifest

theorem fillStaging_eq (env : SnapshotEnvironment δ) (name : SlotName) (input : CaptureInput) :
    fillStaging env name input =
      fillDirectory (fun f (disk : RingDisk) => disk.modify name f) env (captureManifest env input)
        input.sources := rfl

/-! ## Nothing else is touched -/

variable {modify} {env : SnapshotEnvironment δ} {manifestOf : CapturedFiles δ → SnapshotManifest δ}
  {sources : FileIndex → Option StoredFile} {R : σ → σ → Prop}

theorem within_writeBlobIn (hrefl : ∀ s, R s s) (htrans : ∀ {s t u}, R s t → R t u → R s u)
    (hmodify : ∀ f s, R s (modify f s)) (i : FileIndex) (bytes : Bytes) :
    (writeBlobIn modify i bytes).Within R := by
  have hstep : ∀ e f, (Program.durable e (modify f) : Program σ SnapshotError Unit).Within R :=
    fun e f => within_durable hrefl (hmodify f)
  refine Program.Within.bind (R := R) htrans (hstep _ _) fun _ => ?_
  refine Program.Within.tryCatch (R := R) htrans ?_ fun e => ?_
  · exact Program.Within.bind (R := R) htrans (hstep _ _) fun _ => hstep _ _
  · exact Program.Within.bind (R := R) htrans (Program.Within.ignoreError (hstep _ _))
      fun _ => Program.ReadOnly.within hrefl (readOnly_throw e)

theorem within_fillDirectory (hrefl : ∀ s, R s s) (htrans : ∀ {s t u}, R s t → R t u → R s u)
    (hmodify : ∀ f s, R s (modify f s)) : (fillDirectory modify env manifestOf sources).Within R := by
  have hstep : ∀ e f, (Program.durable e (modify f) : Program σ SnapshotError Unit).Within R :=
    fun e f => within_durable hrefl (hmodify f)
  have hread : ∀ {β : Type} (p : Program σ SnapshotError β), p.ReadOnly → p.Within R :=
    fun p hp => Program.ReadOnly.within hrefl hp
  refine Program.Within.bind (R := R) htrans (hstep _ _) fun _ => ?_
  refine Program.Within.bind (R := R) htrans (hread _ (readOnly_ofExcept _)) fun files => ?_
  refine Program.Within.bind (R := R) htrans (hread _ (readOnly_ofExcept _)) fun encoded => ?_
  refine Program.Within.bind (R := R) htrans (hread _ (readOnly_attempt _)) fun _ => ?_
  refine Program.Within.bind (R := R) htrans (within_forM (R := R) hrefl htrans
    (fun payload : FileIndex × Bytes =>
      within_writeBlobIn hrefl htrans hmodify payload.1 payload.2) _) fun _ => ?_
  refine Program.Within.bind (R := R) htrans (hread _ (readOnly_attempt _)) fun _ => ?_
  refine Program.Within.bind (R := R) htrans (hstep _ _) fun _ => ?_
  refine Program.Within.bind (R := R) htrans (hread _ (readOnly_attempt _)) fun _ => ?_
  exact hread _ (readOnly_pure _)

/-! ## What is written -/

theorem blobName_ne_temporaryName : ∀ i : FileIndex, toString i.val ≠ temporaryName := by
  decide

def blobsOf (payloads : List (FileIndex × Bytes)) : List (String × Bytes) :=
  payloads.map fun payload => (toString payload.1.val, payload.2)

theorem filter_blobsOf_temporaryName (payloads : List (FileIndex × Bytes)) :
    (blobsOf payloads).filter (fun file => file.1 ≠ temporaryName) = blobsOf payloads := by
  refine List.filter_eq_self.mpr fun file hfile => ?_
  obtain ⟨payload, -, rfl⟩ := List.mem_map.mp hfile
  exact decide_eq_true (blobName_ne_temporaryName payload.1)

theorem filter_blobsOf_of_notMem {payloads : List (FileIndex × Bytes)} {i : FileIndex}
    (h : i ∉ payloads.map Prod.fst) :
    (blobsOf payloads).filter (fun file => file.1 ≠ toString i.val) = blobsOf payloads := by
  refine List.filter_eq_self.mpr fun file hfile => ?_
  obtain ⟨payload, hpayload, rfl⟩ := List.mem_map.mp hfile
  refine decide_eq_true fun heq => h ?_
  rw [← blobName_injective _ _ heq]
  exact List.mem_map_of_mem hpayload

theorem setBlob_blobsOf {manifest : Option Bytes} {payloads : List (FileIndex × Bytes)}
    {i : FileIndex} (h : i ∉ payloads.map Prod.fst) (bytes : Bytes) :
    (((SnapshotDirectory.setBlob ⟨manifest, some (blobsOf payloads)⟩ temporaryName []).setBlob
      temporaryName bytes).unlink (.blob temporaryName)).setBlob (toString i.val) bytes =
        ⟨manifest, some (blobsOf (payloads ++ [(i, bytes)]))⟩ := by
  have htemp := filter_blobsOf_temporaryName payloads
  have hname := filter_blobsOf_of_notMem h
  have hkept : ∀ rest : List (String × Bytes), (∀ file ∈ rest, file.1 = temporaryName) →
      (blobsOf payloads ++ rest).filter (fun file => file.1 ≠ temporaryName) = blobsOf payloads := by
    intro rest hrest
    have hdrop : rest.filter (fun file => file.1 ≠ temporaryName) = [] :=
      List.filter_eq_nil_iff.mpr fun file hfile => by simp [hrest file hfile]
    rw [List.filter_append, htemp, hdrop, List.append_nil]
  have hone := hkept [(temporaryName, [])] (by simp)
  have htwo := hkept [(temporaryName, bytes)] (by simp)
  have happend : blobsOf (payloads ++ [(i, bytes)]) =
      blobsOf payloads ++ [(toString i.val, bytes)] := List.map_append ..
  simp only [SnapshotDirectory.setBlob, SnapshotDirectory.unlink, Option.map_some]
  rw [htemp, hone, htwo, hname, happend]

theorem payloads_capturedFiles (captured : FileIndex → CapturedAllowedFile δ) :
    (capturedFiles env captured).payloads =
      (List.finRange 7).flatMap fun i => (captured i).bytes.toList.map fun bytes => (i, bytes) := by
  rw [capturedFiles, foldl_addCaptured_payloads]
  rfl

theorem nodup_payloads (captured : FileIndex → CapturedAllowedFile δ) (indices : List FileIndex)
    (h : indices.Nodup) :
    ((indices.flatMap fun i => (captured i).bytes.toList.map fun bytes => (i, bytes)).map
      Prod.fst).Nodup := by
  have hsub : ∀ xs : List FileIndex,
      List.Sublist ((xs.flatMap fun i => (captured i).bytes.toList.map fun bytes =>
        (i, bytes)).map Prod.fst) xs := by
    intro xs
    induction xs with
    | nil => exact List.Sublist.slnil
    | cons x xs ih =>
      rw [List.flatMap_cons, List.map_append]
      rcases (captured x).bytes with _ | bytes
      · exact List.Sublist.cons x ih
      · exact List.Sublist.cons_cons x ih
  exact h.sublist (hsub indices)

theorem blobsOf_payloads (captured : FileIndex → CapturedAllowedFile δ) :
    blobsOf (capturedFiles env captured).payloads = stagedBlobs captured (List.finRange 7) := by
  rw [payloads_capturedFiles, blobsOf, stagedBlobs, List.map_flatMap]
  refine List.flatMap_congr fun i _ => ?_
  rw [List.map_map]
  rfl

section Written

variable (get : σ → Option SnapshotDirectory)

theorem returns_writeBlobIn (hget : ∀ f s, get (modify f s) = (get s).map f)
    {manifest : Option Bytes} {payloads : List (FileIndex × Bytes)} {i : FileIndex} {s : σ}
    (hi : i ∉ payloads.map Prod.fst) (hs : get s = some ⟨manifest, some (blobsOf payloads)⟩)
    (bytes : Bytes) :
    (writeBlobIn modify i bytes).returns
      (fun _ s' => get s' = some ⟨manifest, some (blobsOf (payloads ++ [(i, bytes)]))⟩) s := by
  show get (modify _ (modify _ (modify _ s))) = _
  rw [hget, hget, hget, hs]
  exact congrArg some (setBlob_blobsOf hi bytes)

theorem returns_writeBlobs (hget : ∀ f s, get (modify f s) = (get s).map f)
    {manifest : Option Bytes} {payloads : List (FileIndex × Bytes)}
    (hnodup : (payloads.map Prod.fst).Nodup) {s : σ} (hs : get s = some ⟨manifest, some []⟩) :
    (payloads.forM fun payload => writeBlobIn modify payload.1 payload.2).returns
      (fun _ s' => get s' = some ⟨manifest, some (blobsOf payloads)⟩) s := by
  have hloop := returns_forM
    (g := fun payload : FileIndex × Bytes => writeBlobIn modify payload.1 payload.2)
    (I := fun todo s' => ∃ done, done ++ todo = payloads ∧
      get s' = some ⟨manifest, some (blobsOf done)⟩)
    (fun payload todo s' hs' => by
      obtain ⟨done, hdone, hs'⟩ := hs'
      have hnew : payload.1 ∉ done.map Prod.fst := by
        rw [← hdone, List.map_append, List.nodup_append] at hnodup
        exact fun hmem => hnodup.2.2 _ hmem _ (List.mem_map_of_mem (List.mem_cons_self ..)) rfl
      refine returns_mono (fun _ s'' hs'' => ⟨done ++ [payload], ?_, hs''⟩)
        (returns_writeBlobIn get hget hnew hs' payload.2)
      rw [List.append_assoc]
      exact hdone)
    payloads s ⟨[], rfl, hs⟩
  refine returns_mono (fun _ s' hs' => ?_) hloop
  obtain ⟨done, hdone, hs'⟩ := hs'
  rw [List.append_nil] at hdone
  rw [← hdone]
  exact hs'

/-- **What a capture stages.**  Without faults the staging directory ends with the blobs of the
captured files and the encoded manifest. -/
theorem returns_fillDirectory (hget : ∀ f s, get (modify f s) = (get s).map f)
    {captured : FileIndex → CapturedAllowedFile δ} (h : CapturesProfile env sources captured)
    {encoded : Bytes}
    (hencode : env.encodeManifest (manifestOf (capturedFiles env captured)) = .ok encoded) {s : σ}
    (hs : (get s).isSome = true) :
    (fillDirectory modify env manifestOf sources).returns
      (fun manifest s' => manifest = manifestOf (capturedFiles env captured) ∧
        get s' = some (stagedDirectory captured encoded)) s := by
  obtain ⟨directory, hdirectory⟩ := Option.isSome_iff_exists.mp hs
  rw [fillDirectory, returns_bind, returns_durable, returns_bind,
    h.captureFiles_eq_ok]
  show Program.returns (Program.ofExcept _ >>= _) _ _
  rw [returns_bind, hencode]
  show Program.returns (List.forM _ _ >>= _) _ (modify _ s)
  rw [returns_bind]
  have hnodup : ((capturedFiles env captured).payloads.map Prod.fst).Nodup := by
    rw [payloads_capturedFiles]
    exact nodup_payloads captured _ (List.nodup_finRange 7)
  have hempty : get (modify (fun directory => { directory with files := some [] }) s) =
      some ⟨directory.manifest, some []⟩ := by rw [hget, hdirectory]; rfl
  refine returns_mono (fun _ s' hs' => ?_) (returns_writeBlobs get hget hnodup hempty)
  show _ ∧ get (modify _ s') = _
  rw [hget, hs', blobsOf_payloads]
  exact ⟨rfl, rfl⟩

end Written

end Filling

end DshNexus.Snapshot
