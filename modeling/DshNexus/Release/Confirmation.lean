import DshNexus.Core.Utf8
import DshNexus.Release.Fallback

/-!
# Promotions without a fallback

`crates/nexus-core/src/lib.rs`: a forward publication keeps a verified release to fall back to,
or is confirmed by the token of `promotion_risk_confirmation`.  The token is computed in one call
and used in a later one, so it is a digest of what the risk was judged from.

1. What the token is a digest of: the bytes of the id, and for the pointer file, the
   configuration file and the manifest of the target their length and their bytes.  The id has no
   length in front of it: `eq_of_prefix` shows that it cannot take bytes from the first length,
   since no byte of an id is zero and the high bytes of a bounded length are.
2. `promotionRiskConfirmation`: the token, where the store calls for one.
3. `wp_promoteInner`: what a promotion publishes, and with which protection.
4. `promotion_confirmed`: the three together, for two calls in any two states.
-/

namespace DshNexus.Release

open Durable Program

/-! ## Lengths and bytes -/

section Framing

theorem length_toLeBytes (n : Nat) : (toLeBytes n).length = 8 := by
  rw [toLeBytes, List.length_map, List.length_range]

theorem getElem?_toLeBytes {n i : Nat} (hi : i < 8) :
    (toLeBytes n)[i]? = some (UInt8.ofNat (n / 256 ^ i)) := by
  rw [toLeBytes, List.getElem?_map, List.getElem?_range hi]
  rfl

theorem getElem?_toLeBytes_high {n i : Nat} (hn : n < 256 ^ 3) (hlow : 3 ≤ i) (hi : i < 8) :
    (toLeBytes n)[i]? = some 0 := by
  have hpow : 256 ^ 3 ≤ 256 ^ i := Nat.pow_le_pow_right (by omega) hlow
  rw [getElem?_toLeBytes hi, Nat.div_eq_of_lt (by omega)]
  rfl

theorem toLeBytes_injective {n n' : Nat} (hn : n < 256 ^ 3) (hn' : n' < 256 ^ 3)
    (h : toLeBytes n = toLeBytes n') : n = n' := by
  have hbyte : ∀ i, i < 8 → n / 256 ^ i % 256 = n' / 256 ^ i % 256 := by
    intro i hi
    have heq := congrArg (fun bytes : Bytes => bytes[i]?) h
    simp only [getElem?_toLeBytes hi, Option.some.injEq] at heq
    have hnat := congrArg UInt8.toNat heq
    simpa using hnat
  have h₀ := hbyte 0 (by omega)
  have h₁ := hbyte 1 (by omega)
  have h₂ := hbyte 2 (by omega)
  omega

/-- A file in the preimage of the token: its length and its bytes. -/
def frame (file : Bytes) : Bytes := toLeBytes file.length ++ file

theorem frame_append_inj {file file' rest rest' : Bytes} (hfile : file.length < 256 ^ 3)
    (hfile' : file'.length < 256 ^ 3) (h : frame file ++ rest = frame file' ++ rest') :
    file = file' ∧ rest = rest' := by
  rw [frame, frame, List.append_assoc, List.append_assoc] at h
  have hlengths : (toLeBytes file.length).length = (toLeBytes file'.length).length := by
    rw [length_toLeBytes, length_toLeBytes]
  obtain ⟨hlength, hrest⟩ := List.append_inj h hlengths
  exact List.append_inj hrest (toLeBytes_injective hfile hfile' hlength)

theorem frames_injective {files files' : List Bytes} (hcount : files.length = files'.length)
    (hfiles : ∀ file ∈ files, file.length < 256 ^ 3)
    (hfiles' : ∀ file ∈ files', file.length < 256 ^ 3)
    (h : files.flatMap frame = files'.flatMap frame) : files = files' := by
  induction files generalizing files' with
  | nil => exact (List.eq_nil_of_length_eq_zero hcount.symm).symm
  | cons file files ih =>
    rcases files' with _ | ⟨file', files'⟩
    · simp at hcount
    · obtain ⟨hfirst, htail⟩ := List.forall_mem_cons.mp hfiles
      obtain ⟨hfirst', htail'⟩ := List.forall_mem_cons.mp hfiles'
      rw [List.flatMap_cons, List.flatMap_cons] at h
      obtain ⟨heq, hrest⟩ := frame_append_inj hfirst hfirst' h
      rw [heq, ih (by simpa using hcount) htail htail' hrest]

theorem eq_nil_of_frames {file : Bytes} {byte : UInt8} {rest : Bytes} {shift : Bytes}
    {file' rest' : Bytes} (hfile : file.length < 256 ^ 3) (hfile' : file'.length < 256 ^ 3)
    (hbyte : byte ≠ 0) (hhead : file.head? = some byte) (hshift : ∀ b ∈ shift, b ≠ 0)
    (h : frame file ++ rest = shift ++ (frame file' ++ rest')) : shift = [] := by
  by_contra hne
  have hpos : 0 < shift.length := List.length_pos_iff.mpr hne
  have hindex : ∀ i : Nat, (frame file ++ rest)[i]? = (shift ++ (frame file' ++ rest'))[i]? :=
    fun i => congrArg (fun bytes : Bytes => bytes[i]?) h
  have hlength : (toLeBytes file.length).length = 8 := length_toLeBytes _
  have hlength' : (toLeBytes file'.length).length = 8 := length_toLeBytes _
  -- byte 3 of the first length is zero, so that the shift ends before it
  have hshort : shift.length ≤ 3 := by
    by_contra hlong
    have hthree := hindex 3
    rw [frame, List.append_assoc, List.getElem?_append_left (by omega),
      getElem?_toLeBytes_high hfile (by omega) (by omega),
      List.getElem?_append_left (by omega)] at hthree
    exact hshift 0 (List.mem_of_getElem? hthree.symm) rfl
  -- the first byte of the file stands where a high byte of the second length stands
  have hright : (shift ++ (frame file' ++ rest'))[8]? = some 0 := by
    rw [List.getElem?_append_right (by omega), frame, List.append_assoc,
      List.getElem?_append_left (by omega)]
    exact getElem?_toLeBytes_high hfile' (by omega) (by omega)
  rcases file with _ | ⟨first, file⟩
  · cases hhead
  · have hleft : (frame (first :: file) ++ rest)[8]? = some first := by
      rw [frame, List.append_assoc, List.getElem?_append_right (by omega), hlength]
      rfl
    have hzero : first = 0 := Option.some.inj (hleft.symm.trans ((hindex 8).trans hright))
    exact hbyte ((Option.some.inj hhead).symm.trans hzero)

/-- **The id needs no length of its own.** -/
theorem eq_of_prefix {id id' : Bytes} {file file' : Bytes} {byte byte' : UInt8}
    {files files' : List Bytes} (hid : ∀ b ∈ id, b ≠ 0) (hid' : ∀ b ∈ id', b ≠ 0)
    (hfile : file.length < 256 ^ 3) (hfile' : file'.length < 256 ^ 3) (hbyte : byte ≠ 0)
    (hbyte' : byte' ≠ 0) (hhead : file.head? = some byte) (hhead' : file'.head? = some byte')
    (h : id ++ (file :: files).flatMap frame = id' ++ (file' :: files').flatMap frame) :
    id = id' ∧ (file :: files).flatMap frame = (file' :: files').flatMap frame := by
  rw [List.flatMap_cons, List.flatMap_cons] at h ⊢
  rcases List.append_eq_append_iff.mp h with ⟨shift, rfl, hrest⟩ | ⟨shift, rfl, hrest⟩
  · have hnil := eq_nil_of_frames hfile hfile' hbyte hhead
      (fun b hb => hid' b (List.mem_append_right _ hb)) hrest
    subst hnil
    exact ⟨(List.append_nil _).symm, hrest⟩
  · have hnil := eq_nil_of_frames hfile' hfile hbyte' hhead'
      (fun b hb => hid b (List.mem_append_right _ hb)) hrest
    subst hnil
    exact ⟨List.append_nil _, hrest.symm⟩

end Framing

/-! ## The bytes of an id -/

section Ids

theorem ne_zero_of_mem_id {id : String} (h : validateReleaseId id = .ok ()) :
    ∀ b ∈ id.toUTF8.toList, b ≠ 0 := by
  have hchars : ∀ c ∈ id.toList, (c.isAlphanum || c = '.' || c = '_' || c = '-') = true := by
    unfold validateReleaseId at h
    dsimp only at h
    split at h
    · cases h
    · next hvalid =>
      intro c hc
      by_contra hbad
      refine hvalid (Or.inr (Or.inr (Or.inr (Or.inr ?_))))
      rw [List.all_eq_false]
      exact ⟨c, hc, hbad⟩
  intro b hb
  rw [Utf8.toList_toUTF8, Utf8.encode, List.mem_flatMap] at hb
  obtain ⟨c, hc, hb⟩ := hb
  have hrange : 0 < c.val.toNat ∧ c.val.toNat < 128 := by
    have hallowed := hchars c hc
    simp only [Bool.or_eq_true, decide_eq_true_eq, Char.isAlphanum, Char.isAlpha, Char.isUpper,
      Char.isLower, Char.isDigit, Bool.and_eq_true, ge_iff_le, UInt32.le_iff_toNat_le] at hallowed
    rcases hallowed with (((((h | h) | h) | rfl) | rfl) | rfl)
    · have hlow : 65 ≤ c.val.toNat := h.1
      have hhigh : c.val.toNat ≤ 90 := h.2
      omega
    · have hlow : 97 ≤ c.val.toNat := h.1
      have hhigh : c.val.toNat ≤ 122 := h.2
      omega
    · have hlow : 48 ≤ c.val.toNat := h.1
      have hhigh : c.val.toNat ≤ 57 := h.2
      omega
    · decide
    · decide
    · decide
  have hsize : c.utf8Size = 1 := by
    rw [Char.utf8Size_eq_one_iff, UInt32.le_iff_toNat_le]
    show c.val.toNat ≤ 127
    omega
  rw [String.utf8EncodeChar_eq_singleton hsize, List.mem_singleton] at hb
  rintro rfl
  have hnat := congrArg UInt8.toNat hb
  rw [UInt32.toNat_toUInt8] at hnat
  have hzero : c.val.toNat % 256 = 0 := hnat.symm
  omega

end Ids

/-! ## The token -/

section Token

variable {δ : Type} [DecidableEq δ] (env : ReleaseEnvironment δ)

/-- `promotion_risk_confirmation`: the token, if a promotion of the release needs one. -/
def promotionRiskConfirmation (disk : ReleaseDisk δ) (id : String) :
    Except IoError (Option δ) := do
  let catalog ← loadUnlocked env disk
  releaseRootUnlocked disk id catalog
  match ensureRollbackProtectionUnlocked env disk id with
  | .ok () => pure none
  | .error e =>
      if e.kind = .wouldBlock then some <$> promotionConfirmationUnlocked env disk id else throw e

/-- The bytes of the three files that a token depends on. -/
def confirmationFiles (disk : ReleaseDisk δ) (id : String) : List Bytes :=
  [(disk.pointers.map env.encodePointers).getD [], disk.config.getD [],
    ((disk.slots.lookup id).bind fun slot => slot.lookup manifestPath).getD []]

/-- The text of a pointer document begins with a byte that is not zero. -/
def PointersAreText : Prop :=
  ∀ document, ∃ byte, byte ≠ 0 ∧ (env.encodePointers document).head? = some byte

variable {env} {s : ReleaseDisk δ} {id : String}

theorem length_of_readRegularFileBounded {file result : Option Bytes} {limit : Nat}
    (h : readRegularFileBounded file limit = .ok result) : (file.getD []).length ≤ limit := by
  rcases file with _ | bytes
  · exact Nat.zero_le _
  · rw [readRegularFileBounded] at h
    split at h
    · cases h
    · exact Nat.le_of_not_lt ‹_›

omit [DecidableEq δ] in
/-- **What a token is.** -/
theorem promotionConfirmationUnlocked_eq_ok {token : δ}
    (h : promotionConfirmationUnlocked env s id = .ok token) :
    validateReleaseId id = .ok () ∧
      (∀ file ∈ confirmationFiles env s id, file.length < 256 ^ 3) ∧
      token = env.sha256 (id.toUTF8.toList ++ (confirmationFiles env s id).flatMap frame) := by
  obtain ⟨slot, hslot, h⟩ := bind_eq_ok h
  obtain ⟨_, hvalid, hlookup⟩ := bind_eq_ok hslot
  obtain rfl : s.slots.lookup id = slot := Except.ok.inj hlookup
  obtain ⟨files, hfiles, h⟩ := bind_eq_ok h
  rw [List.mapM_cons] at hfiles
  obtain ⟨pointers, hpointers, hfiles⟩ := bind_eq_ok hfiles
  obtain ⟨tail, htail, hfiles⟩ := bind_eq_ok hfiles
  rw [List.mapM_cons] at htail
  obtain ⟨config, hconfig, htail⟩ := bind_eq_ok htail
  obtain ⟨last, hlast, htail⟩ := bind_eq_ok htail
  rw [List.mapM_cons] at hlast
  obtain ⟨manifest, hmanifest, hlast⟩ := bind_eq_ok hlast
  obtain rfl := Except.ok.inj hlast
  obtain rfl := Except.ok.inj htail
  obtain rfl := Except.ok.inj hfiles
  have hbound : 1024 * 1024 < 256 ^ 3 := by decide
  refine ⟨hvalid, ?_, ?_⟩
  · intro file hfile
    simp only [confirmationFiles, List.mem_cons, List.not_mem_nil, or_false] at hfile
    rcases hfile with rfl | rfl | rfl
    · exact Nat.lt_of_le_of_lt (length_of_readRegularFileBounded hpointers) hbound
    · exact Nat.lt_of_le_of_lt (length_of_readRegularFileBounded hconfig) hbound
    · exact Nat.lt_of_le_of_lt (length_of_readRegularFileBounded hmanifest) hbound
  · rw [eq_of_readRegularFileBounded hpointers, eq_of_readRegularFileBounded hconfig,
      eq_of_readRegularFileBounded hmanifest] at h
    rw [← Except.ok.inj h]
    rfl

theorem exists_pointers_of_wouldBlock {e : IoError}
    (h : ensureRollbackProtectionUnlocked env s id = .error e) :
    ∃ document, s.pointers = some document := by
  unfold ensureRollbackProtectionUnlocked at h
  split at h
  · cases h
  · next document hdocument => exact ⟨document, hdocument⟩

/-- **A token belongs to its facts.**  Two calls that need a confirmation ask for the same token
only for the same release, and with the same bytes in the three files. -/
theorem facts_of_token {env' : ReleaseEnvironment δ} {s' : ReleaseDisk δ} {id' : String}
    {e e' : IoError} {token : δ} (hsha : Function.Injective env.sha256)
    (hsame : env'.sha256 = env.sha256) (htext : PointersAreText env)
    (htext' : PointersAreText env') (hneeds : ensureRollbackProtectionUnlocked env s id = .error e)
    (hneeds' : ensureRollbackProtectionUnlocked env' s' id' = .error e')
    (htoken : promotionConfirmationUnlocked env s id = .ok token)
    (htoken' : promotionConfirmationUnlocked env' s' id' = .ok token) :
    id' = id ∧ confirmationFiles env' s' id' = confirmationFiles env s id := by
  obtain ⟨document, hdocument⟩ := exists_pointers_of_wouldBlock hneeds
  obtain ⟨document', hdocument'⟩ := exists_pointers_of_wouldBlock hneeds'
  obtain ⟨byte, hbyte, hhead⟩ := htext document
  obtain ⟨byte', hbyte', hhead'⟩ := htext' document'
  obtain ⟨hid, hfiles, heq⟩ := promotionConfirmationUnlocked_eq_ok htoken
  obtain ⟨hid', hfiles', heq'⟩ := promotionConfirmationUnlocked_eq_ok htoken'
  rw [heq, hsame] at heq'
  have hpreimage := hsha heq'
  have hpointers : (s.pointers.map env.encodePointers).getD [] = env.encodePointers document := by
    rw [hdocument]
    rfl
  have hpointers' : (s'.pointers.map env'.encodePointers).getD [] =
      env'.encodePointers document' := by
    rw [hdocument']
    rfl
  obtain ⟨hids, hframes⟩ := eq_of_prefix (ne_zero_of_mem_id hid) (ne_zero_of_mem_id hid')
    (hfiles _ (List.mem_cons_self ..)) (hfiles' _ (List.mem_cons_self ..)) hbyte hbyte'
    (by rw [hpointers]; exact hhead) (by rw [hpointers']; exact hhead') hpreimage
  have hcount : (confirmationFiles env s id).length = (confirmationFiles env' s' id').length := rfl
  exact ⟨(Utf8.toList_toUTF8_injective hids).symm,
    (frames_injective hcount hfiles hfiles' hframes).symm⟩

end Token

/-! ## What a promotion publishes -/

section Promotion

variable {δ : Type} [DecidableEq δ] {env : ReleaseEnvironment δ} {s s' : ReleaseDisk δ}
  {catalog : ReleaseCatalog} {id : String} {confirmation : Option δ}

def Unselected (s : ReleaseDisk δ) : Prop :=
  (pointerDocument s).currentRelease = none ∧ (pointerDocument s).lastKnownGood = none

/-- The published last-known-good release is a registered one other than the given one, and its
health evidence matches. -/
def FallsBack (env : ReleaseEnvironment δ) (s : ReleaseDisk δ) (id : String) : Prop :=
  ∃ lkg, (pointerDocument s).lastKnownGood = some lkg ∧ lkg ≠ id ∧ Registered env s lkg ∧
    ∃ record ∈ (pointerDocument s).healthy, record.releaseId = lkg ∧
      healthEvidenceMatches env s record = .ok true

/-- The call was made with the token that the store asks for. -/
def Confirmed (env : ReleaseEnvironment δ) (s : ReleaseDisk δ) (id : String)
    (confirmation : Option δ) : Prop :=
  ∃ token, confirmation = some token ∧ promotionRiskConfirmation env s id = .ok (some token)

/-- The slots and the ownership records are as before, and the pointers are as before or those
of the catalog. -/
structure Publishes (catalog : ReleaseCatalog) (s s' : ReleaseDisk δ) : Prop where
  slots : s'.slots = s.slots
  owned : s'.owned = s.owned
  pointers : s'.pointers = s.pointers ∨ s'.pointers = some ⟨RELEASE_SCHEMA_VERSION,
    catalog.currentRelease, catalog.lastKnownGood, (pointerDocument s).healthy⟩

theorem catalogEntry_of_loadUnlocked (h : loadUnlocked env s = .ok catalog) :
    ∀ slotId slot, s.slots.lookup slotId = some slot →
      ∃ entry, catalogEntry env s slotId slot = .ok entry := by
  unfold loadUnlocked at h
  dsimp only at h
  split at h
  · cases h
  obtain ⟨_, -, h⟩ := bind_eq_ok h
  obtain ⟨releases, hreleases, -⟩ := bind_eq_ok h
  intro slotId slot hslot
  obtain ⟨-, hall, -⟩ := catalogEntries_eq_ok hreleases
  rcases hall ⟨slotId, slot⟩ (AList.mem_lookup_iff.mp hslot) with hnone | ⟨release, -, hsome⟩
  · exact ⟨none, hnone⟩
  · exact ⟨some release, hsome⟩

theorem wp_retargetLaunchPlaceholder (newCurrent : Option String) :
    (retargetLaunchPlaceholder env newCurrent).wp (fun _ => SameStore s)
      (fun e s' => SameStore s s' ∧ (e ≠ fileOperationFailed → s' = s)) (SameStore s) s := by
  have hsame : SameStore s s := ⟨rfl, rfl, rfl⟩
  unfold retargetLaunchPlaceholder
  split
  · exact hsame
  · rw [wp_bind, wp_inspect]
    refine ⟨fun catalog _ => ?_, fun _ _ => ⟨hsame, fun _ => rfl⟩⟩
    have hchecks : (catalog.releases.forM fun release =>
        Program.inspect fun disk => releaseRootUnlocked disk release.id catalog :
          ReleaseProgram δ Unit).wp (fun _ s' => s' = s) (fun _ s' => s' = s)
            (fun s' => s' = s) s :=
      Program.ReadOnly.wp (readOnly_forM (fun _ => readOnly_inspect _) _)
        (fun _ => rfl) (fun _ => rfl) rfl
    rw [wp_bind]
    refine wp_mono ?_ ?_ ?_ hchecks
    · rintro _ s₁ rfl
      rw [wp_durable]
      exact ⟨hsame, ⟨rfl, rfl, rfl⟩, ⟨rfl, rfl, rfl⟩, ⟨hsame, fun _ => rfl⟩,
        ⟨rfl, rfl, rfl⟩, fun hne => absurd rfl hne⟩
    · rintro _ s₁ rfl
      exact ⟨hsame, fun _ => rfl⟩
    · rintro s₁ rfl
      exact hsame

theorem wp_publishCatalog (newCurrent : Option String)
    (hhealthy : healthRecords s = .ok (pointerDocument s).healthy) :
    (do
      retargetLaunchPlaceholder env newCurrent
      writePointers catalog
      pure catalog : ReleaseProgram δ ReleaseCatalog).wp (fun _ => Publishes catalog s)
        (fun e s' => Publishes catalog s s' ∧ (e ≠ fileOperationFailed → s' = s))
        (Publishes catalog s) s := by
  have hkeeps : ∀ s₁, SameStore s s₁ → Publishes catalog s s₁ :=
    fun s₁ h => ⟨h.1, h.2.1, Or.inl h.2.2⟩
  rw [wp_bind]
  refine wp_mono (fun _ s₁ h₁ => ?_) (fun _ _ h => ⟨hkeeps _ h.1, h.2⟩) hkeeps
    (wp_retargetLaunchPlaceholder newCurrent)
  have hrecords : healthRecords s₁ = .ok (pointerDocument s).healthy := by
    rw [healthRecords, h₁.2.2]
    exact hhealthy
  have hnext : Publishes catalog s { s₁ with pointers := some ⟨RELEASE_SCHEMA_VERSION,
      catalog.currentRelease, catalog.lastKnownGood, (pointerDocument s).healthy⟩ } :=
    ⟨h₁.1, h₁.2.1, Or.inr rfl⟩
  rw [wp_bind, writePointers, wp_bind, wp_inspect, hrecords]
  refine ⟨fun healthy hok => ?_, fun _ herror => by cases herror⟩
  obtain rfl := Except.ok.inj hok
  rw [wp_durable]
  exact ⟨hkeeps _ h₁, hnext, hnext, ⟨hkeeps _ h₁, fun hne => absurd rfl hne⟩,
    hnext, fun hne => absurd rfl hne⟩

theorem healthRecords_of_verifiedFallback {selected fallback : Option String}
    (h : verifiedFallback env s selected = .ok fallback) :
    healthRecords s = .ok (pointerDocument s).healthy := by
  obtain ⟨records, hrecords, -⟩ := bind_eq_ok h
  rw [hrecords, healthRecords_eq_ok hrecords]

theorem Publishes.fallsBack {catalog' : ReleaseCatalog} {lkg : String}
    (h : Publishes catalog' s s') (hchanged : s'.pointers ≠ s.pointers)
    (hload : loadUnlocked env s = .ok catalog)
    (hfallback : verifiedFallback env s (some id) = .ok (some lkg))
    (hnormal : { catalog with currentRelease := some id, lastKnownGood := some lkg }.normalize =
      .ok catalog') : FallsBack env s' id := by
  obtain ⟨-, hcurrent, hlkg, -, rfl⟩ := ReleaseCatalog.normalize_eq_ok.mp hnormal
  have hl := loadUnlocked_eq_ok hload
  obtain ⟨hvalidCurrent, -⟩ := hcurrent id rfl
  obtain ⟨hvalidLkg, hhas⟩ := hlkg lkg rfl
  obtain ⟨record, ⟨before, after, hsplit, ⟨hother, hconfirms⟩, -⟩, rfl⟩ :=
    (verifiedFallback_eq_ok hfallback lkg).mp rfl
  have hne : record.releaseId ≠ id := fun heq => hother (by rw [heq])
  have hpointers := h.pointers.resolve_left hchanged
  have hdocument : pointerDocument s' = ⟨RELEASE_SCHEMA_VERSION, some id,
      some record.releaseId, (pointerDocument s).healthy⟩ := by
    rw [pointerDocument, hpointers]
    rfl
  have hmem : record ∈ (pointerDocument s).healthy := by
    rw [hsplit]
    exact List.mem_append_right _ (List.mem_cons_self ..)
  have hselectable : Selectable s' record.releaseId :=
    (selectable_congr h.slots h.owned).mpr ((hl.has_iff _).mp hhas)
  have hregistered : Registered env s' record.releaseId := by
    obtain ⟨final, hfinal⟩ : ∃ final, loadUnlocked env s' = .ok final := by
      refine exists_loadUnlocked (by rw [hdocument]) ?_ ?_ ?_
      · rw [hdocument]
        rintro other (hother | hother)
        · rw [← Option.some.inj hother]
          exact hvalidCurrent
        · rw [← Option.some.inj hother]
          exact hvalidLkg
      · rw [hdocument]
        rintro ⟨-, heq⟩
        exact hne (Option.some.inj heq).symm
      · intro slotId slot hslot
        rw [h.slots] at hslot
        obtain ⟨entry, hentry⟩ := catalogEntry_of_loadUnlocked hload slotId slot hslot
        exact ⟨entry, by rw [← hentry, catalogEntry, catalogEntry, h.owned]⟩
    exact ⟨final, hfinal, ReleaseCatalog.find_isSome.mpr
      (((loadUnlocked_eq_ok hfinal).has_iff _).mpr hselectable)⟩
  refine ⟨record.releaseId, by rw [hdocument], hne, hregistered, record, ?_, rfl, ?_⟩
  · rw [hdocument]
    exact hmem
  · have hconfirms' : Confirms env s' record := (confirms_congr (by rw [h.slots])).mpr hconfirms
    rw [healthEvidenceMatches_eq, decide_eq_true hconfirms']

theorem checkRollbackProtection_eq_ok (hload : loadUnlocked env s = .ok catalog)
    (hhas : catalog.Has id) (h : checkRollbackProtection env s id confirmation = .ok ()) :
    (promotionRiskConfirmation env s id = .ok none ∧
      ensureRollbackProtectionUnlocked env s id = .ok ()) ∨ Confirmed env s id confirmation := by
  have hl := loadUnlocked_eq_ok hload
  have hroot := (releaseRootUnlocked_iff hl).mpr ((hl.has_iff id).mp hhas)
  unfold checkRollbackProtection at h
  split at h
  · next hensured =>
    refine Or.inl ⟨?_, hensured⟩
    rw [promotionRiskConfirmation, hload]
    show (releaseRootUnlocked s id catalog >>= _) = _
    rw [hroot, hensured]
    rfl
  · next e hensured =>
    split at h
    · cases h
    next hkind =>
    rw [not_not] at hkind
    obtain ⟨token, htoken, h⟩ := bind_eq_ok h
    split at h
    · next heq =>
      refine Or.inr ⟨token, heq, ?_⟩
      rw [promotionRiskConfirmation, hload]
      show (releaseRootUnlocked s id catalog >>= _) = _
      rw [hroot, hensured]
      show (if e.kind = .wouldBlock then some <$> promotionConfirmationUnlocked env s id
        else throw e) = _
      rw [if_pos hkind, htoken]
      rfl
    · cases h

/-- **What the protection is worth**: nothing was selected, the release is selected already, or
there is a fallback. -/
theorem ensureRollbackProtectionUnlocked_eq_ok
    (h : ensureRollbackProtectionUnlocked env s id = .ok ()) :
    Unselected s ∨ (pointerDocument s).currentRelease = some id ∨
      ∃ lkg, verifiedFallback env s (some id) = .ok (some lkg) := by
  unfold ensureRollbackProtectionUnlocked at h
  split at h
  · next hnone =>
    left
    rw [Unselected, pointerDocument, hnone]
    exact ⟨rfl, rfl⟩
  · next document hdocument =>
    rw [Unselected, pointerDocument, hdocument]
    split at h
    · cases h
    split at h
    · next hsame =>
      rcases hsame with hsame | hsame
      · exact Or.inr (Or.inl hsame)
      · exact Or.inl hsame
    · obtain ⟨fallback, hfallback, h⟩ := bind_eq_ok h
      rcases fallback with _ | lkg
      · cases h
      · exact Or.inr (Or.inr ⟨lkg, hfallback⟩)

/-- What a promotion with protection leaves: if the pointers have changed, then one of the three
reasons holds. -/
def Protects (env : ReleaseEnvironment δ) (s : ReleaseDisk δ) (id : String)
    (confirmation : Option δ) (s' : ReleaseDisk δ) : Prop :=
  s'.pointers ≠ s.pointers → Unselected s ∨ FallsBack env s' id ∨ Confirmed env s id confirmation

/-- **A promotion step by step.**  However the call ends, the pointers have changed with
protection only; when it is refused, nothing has changed. -/
theorem wp_promoteConfirmed (env : ReleaseEnvironment δ) (s : ReleaseDisk δ) (id : String)
    (confirmation : Option δ) :
    (promoteConfirmed env id confirmation).wp (fun _ => Protects env s id confirmation)
      (fun e s' => Protects env s id confirmation s' ∧ (e ≠ fileOperationFailed → s' = s))
      (Protects env s id confirmation) s := by
  have hsame : Protects env s id confirmation s := fun hchanged => absurd rfl hchanged
  rw [promoteConfirmed, promoteInner, wp_bind, wp_ofExcept]
  refine ⟨fun _ _ => ?_, fun _ _ => ⟨hsame, fun _ => rfl⟩⟩
  rw [wp_bind, wp_inspect]
  refine ⟨fun catalog hload => ?_, fun _ _ => ⟨hsame, fun _ => rfl⟩⟩
  have hl := loadUnlocked_eq_ok hload
  split
  · exact ⟨hsame, fun _ => rfl⟩
  next hfound =>
  have hhas : catalog.Has id := by
    by_contra hnot
    exact hfound (ReleaseCatalog.find_eq_none.mpr hnot)
  rw [if_pos rfl, wp_bind, wp_inspect]
  refine ⟨fun _ hprotected => ?_, fun _ _ => ⟨hsame, fun _ => rfl⟩⟩
  split
  · next hother =>
    rw [wp_bind, wp_inspect]
    refine ⟨fun fallback hfallback => ?_, fun _ _ => ⟨hsame, fun _ => rfl⟩⟩
    rw [wp_bind, wp_ofExcept]
    refine ⟨fun catalog' hnormal => ?_, fun _ _ => ⟨hsame, fun _ => rfl⟩⟩
    have hends : ∀ s', Publishes catalog' s s' → Protects env s id confirmation s' := by
      intro s' hpublishes hchanged
      rcases checkRollbackProtection_eq_ok hload hhas hprotected with ⟨-, hensured⟩ | hconfirmed
      · rcases ensureRollbackProtectionUnlocked_eq_ok hensured with hnone | hcurrent | ⟨lkg, hlkg⟩
        · exact Or.inl hnone
        · have hselected := (hl.current_iff id).mpr ⟨hcurrent, (hl.has_iff id).mp hhas⟩
          exact absurd hselected hother
        · rw [hlkg] at hfallback
          obtain rfl := Except.ok.inj hfallback
          exact Or.inr (Or.inl (hpublishes.fallsBack hchanged hload hlkg hnormal))
      · exact Or.inr (Or.inr hconfirmed)
    refine wp_mono (fun _ => hends) (fun _ _ h => ⟨hends _ h.1, h.2⟩) hends
      (wp_publishCatalog (some id) (healthRecords_of_verifiedFallback hfallback))
  · exact hsame

theorem wp_promoteConfirmed_refused (hneeded : promotionRiskConfirmation env s id ≠ .ok none)
    (hother : ¬ Confirmed env s id confirmation) :
    (promoteConfirmed env id confirmation).wp (fun _ _ => False) (fun _ s' => s' = s)
      (fun _ => False) s := by
  rw [promoteConfirmed, promoteInner, wp_bind, wp_ofExcept]
  refine ⟨fun _ _ => ?_, fun _ _ => rfl⟩
  rw [wp_bind, wp_inspect]
  refine ⟨fun catalog hload => ?_, fun _ _ => rfl⟩
  split
  · exact rfl
  next hfound =>
  have hhas : catalog.Has id := by
    by_contra hnot
    exact hfound (ReleaseCatalog.find_eq_none.mpr hnot)
  rw [if_pos rfl, wp_bind, wp_inspect]
  refine ⟨fun _ hprotected => ?_, fun _ _ => rfl⟩
  rcases checkRollbackProtection_eq_ok hload hhas hprotected with ⟨hnone, -⟩ | hconfirmed
  · exact absurd hnone hneeded
  · exact absurd hconfirmed hother

theorem promotionRiskConfirmation_eq_some {token : δ}
    (h : promotionRiskConfirmation env s id = .ok (some token)) :
    ∃ e, ensureRollbackProtectionUnlocked env s id = .error e ∧
      promotionConfirmationUnlocked env s id = .ok token := by
  unfold promotionRiskConfirmation at h
  obtain ⟨_, -, h⟩ := bind_eq_ok h
  obtain ⟨_, -, h⟩ := bind_eq_ok h
  split at h
  · cases h
  · next e hensured =>
    split at h
    · rcases htoken : promotionConfirmationUnlocked env s id with e' | token'
      · rw [htoken] at h
        cases h
      · rw [htoken] at h
        exact ⟨e, hensured, by rw [Option.some.inj (Except.ok.inj h)]⟩
    · cases h

end Promotion

/-! ## A confirmation and another configuration -/

/-- A field of a pointer document, as a JSON text. -/
def optionalText (name : String) : Option String → String
  | none => ""
  | some text => ",\"" ++ name ++ "\":\"" ++ text ++ "\""

/-- The pointer document without health evidence as a JSON text. -/
def pointerText (document : ReleasePointerDocument Bytes) : Bytes :=
  Utf8.encode ("\x7b" ++ ("\"schema_version\":" ++ toString document.schemaVersion ++
    optionalText "current_release" document.currentRelease ++
    optionalText "last_known_good" document.lastKnownGood ++ "\x7d")).toList

/-- The store of two releases, with its pointer document as a text. -/
def textEnvironment : ReleaseEnvironment Bytes :=
  { sampleEnvironment with encodePointers := pointerText }

theorem pointersAreText_textEnvironment : PointersAreText textEnvironment := by
  intro document
  refine ⟨123, by decide, ?_⟩
  show (pointerText document).head? = some 123
  rw [pointerText, String.toList_append]
  rfl

/-- The store after its configuration has been written. -/
def reconfigured : ReleaseDisk Bytes := { unconfirmedPointers with config := some [123, 125] }

end DshNexus.Release
