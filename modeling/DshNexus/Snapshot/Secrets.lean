import DshNexus.Snapshot.Location

/-!
# Merging current secrets into a snapshot

`crates/nexus-snapshots/src/validation.rs`: `merge_current_secrets` restores a sanitized
document and copies the secrets of the current document into it.  The JSON branch copies
between equal index pointers; the YAML branch finds the element with the same `id` first.

* `MergeInv`: what holds after any prefix of the copies; `MergeInv.placeSecret` is one copy
  and `mergeInv_foldlM` all of them.
* `remapSegments_eq_ok`: a remapped pointer leads to the one owner with the same identity.
* `keepsOwners_json_iff`, `keepsOwners_yaml`: when the secrets stay with their owners.
-/

namespace DshNexus.Snapshot

open Document (Tree Step Scalar)

/-! ## The merge -/

section Merge

variable {κ τ : Type} [DecidableEq κ] (syn : DocumentSyntax κ)

/-- One copy: `target` is the place for the secret that `pointer` names, if there is one. -/
def placeSecret (target : Tree κ τ → String → Except SnapshotError String)
    (current desired : Tree κ τ) (pointer : String) : Except SnapshotError (Tree κ τ) := do
  match ← getPointer syn current pointer with
  | none => pure desired
  | some secret =>
      let place ← target desired pointer
      insertPointer syn desired place secret

/-- What a merge works on and what it returns. -/
structure Merge (κ τ : Type) where
  snapshot : Tree κ τ
  current : Tree κ τ
  paths : List String
  document : Tree κ τ
  bytes : Bytes

/-- The two branches of `merge_current_secrets`, for the reader and the encoder of a format,
the pointers that it copies and the place for each. -/
def mergeDocument (read : Bytes → Except ReadError (Tree κ τ))
    (print : Tree κ τ → Except String Bytes)
    (pathsOf : List String → List String → Except SnapshotError (List String))
    (target : Tree κ τ → Tree κ τ → String → Except SnapshotError String)
    (displayPath : String) (snapshotBytes : Bytes) (snapshotRedactedPaths : List String)
    (currentBytes : Bytes) : Except SnapshotError (Merge κ τ) :=
  match read snapshotBytes, read currentBytes with
  | .error (.notUtf8 message), _ =>
      .error (.structuredData displayPath ("snapshot is not UTF-8: " ++ message))
  | _, .error (.notUtf8 message) =>
      .error (.structuredData displayPath ("current file is not UTF-8: " ++ message))
  | .error (.invalid message), _ =>
      .error (.structuredData displayPath ("invalid snapshot " ++ syn.name ++ ": " ++ message))
  | _, .error (.invalid message) =>
      .error (.structuredData displayPath
        ("current " ++ syn.name ++ " is invalid; refusing to overwrite it: " ++ message))
  | .ok snapshot, .ok current => do
      let (_, currentSensitive) ← redact syn current [] []
      let paths ← pathsOf snapshotRedactedPaths currentSensitive
      let desired ← paths.foldlM (placeSecret syn (target current) current) snapshot
      if snapshotRedactedPaths.isEmpty = true ∧ currentSensitive.isEmpty = true then
        pure ⟨snapshot, current, paths, desired, snapshotBytes⟩
      else
        match print desired with
        | .ok bytes => pure ⟨snapshot, current, paths, desired, bytes⟩
        | .error message =>
            .error (.structuredData displayPath
              ("cannot encode restored " ++ syn.name ++ ": " ++ message))

end Merge

/-- The insertion of a `BTreeSet`. -/
def insertPath (path : String) : List String → List String
  | [] => [path]
  | other :: paths =>
      if path = other then other :: paths
      else if path < other then path :: other :: paths
      else other :: insertPath path paths

def redactionUnion (snapshot current : List String) : Except SnapshotError (List String) :=
  (snapshot ++ current).foldlM (fun paths path => do
    validateRedactedPath path
    if (insertPath path paths).length > MAX_REDACTED_PATHS then
      .error (.invalidManifest "redacted path count exceeds bound")
    else pure (insertPath path paths)) []

/-- The error of `remap_yaml_secret`. -/
def identityChanged (pointer : String) : SnapshotError :=
  .structuredData pointer
    "cannot preserve secret: sequence identity is missing, ambiguous or changed"

/-- The walk of `remap_yaml_secret`. -/
def remapSegments (pointer : String) :
    YamlValue → YamlValue → List String → Except SnapshotError (List String)
  | _, _, [] => .ok []
  | .mapping a, .mapping b, segment :: segments =>
      if segments = [] then .ok [segment]
      else
        match a.lookup (.text segment), b.lookup (.text segment) with
        | some source, some target =>
            (segment :: ·) <$> remapSegments pointer source target segments
        | _, _ => .error (identityChanged pointer)
  | .sequence a, .sequence b, segment :: segments =>
      match (parseUsize segment).bind (a[·]?) with
      | none => .error (identityChanged pointer)
      | some item =>
          match (elementId yamlSyntax item).filter (· ≠ "") with
          | none => .error (identityChanged pointer)
          | some id =>
              if (a.map (elementId yamlSyntax)).count (some id) ≠ 1 ∨
                  (b.map (elementId yamlSyntax)).count (some id) ≠ 1 then
                .error (identityChanged pointer)
              else
                let j := (b.map (elementId yamlSyntax)).idxOf (some id)
                match b[j]? with
                | none => .error (identityChanged pointer)
                | some target =>
                    (toString j :: ·) <$> remapSegments pointer item target segments
  | _, _, _ => .error (identityChanged pointer)

def remapYamlSecret (source target : YamlValue) (pointer : String) :
    Except SnapshotError String := do
  let segments ← decodePointer pointer
  encodePointer <$> remapSegments pointer source target segments

variable (codecs : DocumentCodecs)

/-- The JSON branch of `merge_current_secrets`. -/
def mergeJson : String → Bytes → List String → Bytes →
    Except SnapshotError (Merge String Empty) :=
  mergeDocument jsonSyntax codecs.readJson codecs.json.print redactionUnion
    fun _ _ pointer => .ok pointer

/-- The YAML branch of `merge_current_secrets`. -/
def mergeYaml : String → Bytes → List String → Bytes →
    Except SnapshotError (Merge YamlKey String) :=
  mergeDocument yamlSyntax codecs.readYaml codecs.yaml.print
    (fun _ currentSensitive => .ok currentSensitive) remapYamlSecret

def mergeCurrentSecrets (policy : SnapshotFilePolicy) (snapshot : Bytes)
    (snapshotRedactedPaths : List String) (current : Option Bytes) : Except SnapshotError Bytes :=
  match current with
  | none => .ok snapshot
  | some current =>
      match policy.format with
      | .json =>
          Merge.bytes <$>
            mergeJson codecs policy.manifestPath snapshot snapshotRedactedPaths current
      | .yaml =>
          Merge.bytes <$>
            mergeYaml codecs policy.manifestPath snapshot snapshotRedactedPaths current

/-! ## Secret paths -/

section Paths

variable {κ τ : Type} {syn : DocumentSyntax κ}

theorem isSecretPath_cons {segment : String} {path : List String}
    (hs : isSensitiveKey segment = false) (h : IsSecretPath path) :
    IsSecretPath (segment :: path) := by
  cases path with
  | nil => exact h.elim
  | cons next rest => exact ⟨hs, h⟩

mutual

theorem isSecretPath_of_mem : ∀ (t : Tree κ τ), ∀ p ∈ secretPaths syn t, IsSecretPath p
  | .scalar _, _, hp => absurd hp (List.not_mem_nil)
  | .sequence items, p, hp => isSecretPath_of_mem_items items 0 p hp
  | .mapping members, p, hp => isSecretPath_of_mem_members members p hp
  | .tagged _ v, p, hp => isSecretPath_of_mem v p hp

theorem isSecretPath_of_mem_items : ∀ (items : List (Tree κ τ)) (index : Nat),
    ∀ p ∈ secretPathsItems syn items index, IsSecretPath p
  | [], _, p, hp => absurd hp (List.not_mem_nil)
  | item :: items, index, p, hp => by
    rcases List.mem_append.mp hp with hp | hp
    · obtain ⟨q, hq, rfl⟩ := List.mem_map.mp hp
      exact isSecretPath_cons (not_isSensitiveKey_toString index) (isSecretPath_of_mem item q hq)
    · exact isSecretPath_of_mem_items items (index + 1) p hp

theorem isSecretPath_of_mem_members : ∀ (members : List (κ × Tree κ τ)),
    ∀ p ∈ secretPathsMembers syn members, IsSecretPath p
  | [], p, hp => absurd hp (List.not_mem_nil)
  | (key, child) :: members, p, hp => by
    rcases List.mem_append.mp hp with hp | hp
    · split at hp
      · exact absurd hp (List.not_mem_nil)
      · next keyText hkey =>
        split at hp
        · next hsens =>
          rw [List.mem_singleton.mp hp]
          exact hsens
        · next hsens =>
          obtain ⟨q, hq, rfl⟩ := List.mem_map.mp hp
          exact isSecretPath_cons (by simpa using hsens) (isSecretPath_of_mem child q hq)
    · exact isSecretPath_of_mem_members members p hp

end

/-- A pointer that, where it can be decoded, names a secret path. -/
def SecretPointer (pointer : String) : Prop :=
  ∀ segments, decodePointer pointer = .ok segments → IsSecretPath segments

theorem secretPointer_encodePointer {path : List String} (h : IsSecretPath path) :
    SecretPointer (encodePointer path) := by
  intro segments hsegments
  rw [decodePointer_encodePointer h.ne_nil
    (validateRedactedPath_of_decodePointer hsegments)] at hsegments
  rw [← Except.ok.inj hsegments]
  exact h

theorem secretPointer_of_mem {t : Tree κ τ} {pointer : String}
    (h : pointer ∈ (secretPaths syn t).map encodePointer) : SecretPointer pointer := by
  obtain ⟨p, hp, rfl⟩ := List.mem_map.mp h
  exact secretPointer_encodePointer (isSecretPath_of_mem t p hp)

variable [DecidableEq κ]

def pointerLocation (syn : DocumentSyntax κ) (value : Tree κ τ) (pointer : String) :
    Option (List (Step κ) × κ) :=
  match decodePointer pointer with
  | .ok segments => segmentsLocation syn value segments
  | .error _ => none

theorem pointerLocation_congr {pointer : String} (h : SecretPointer pointer) {a b : Tree κ τ}
    (hab : a.strip syn.secretKey = b.strip syn.secretKey) :
    pointerLocation syn a pointer = pointerLocation syn b pointer := by
  unfold pointerLocation
  split
  · next segments hsegments => exact segmentsLocation_congr (h segments hsegments) hab
  · rfl

theorem isOpen_of_pointerLocation {pointer : String} (h : SecretPointer pointer)
    {value : Tree κ τ} {l : List (Step κ)} {k : κ}
    (hl : pointerLocation syn value pointer = some (l, k)) :
    (∀ step ∈ l, step.isOpen syn.secretKey = true) ∧ syn.secretKey k = true := by
  unfold pointerLocation at hl
  split at hl
  · next segments hsegments => exact isOpen_of_segmentsLocation (h segments hsegments) hl
  · exact nomatch hl

theorem getPointer_eq_some {pointer : String} (h : SecretPointer pointer)
    {value secret : Tree κ τ} (hget : getPointer syn value pointer = .ok (some secret)) :
    ∃ l k w, pointerLocation syn value pointer = some (l, k) ∧
      value.get? (l ++ [.key k]) = some w ∧ secret = w.untag := by
  obtain ⟨segments, hsegments, hget⟩ := bind_eq_ok hget
  unfold pointerLocation
  rw [hsegments]
  exact getSegments_eq_some (h segments hsegments) hget

theorem insertPointer_eq_ok {pointer : String} (h : SecretPointer pointer)
    {value value' secret : Tree κ τ}
    (hins : insertPointer syn value pointer secret = .ok value') :
    ∃ l k, pointerLocation syn value pointer = some (l, k) ∧
      value.putMember? syn.before l k secret = some value' := by
  obtain ⟨segments, hsegments, hins⟩ := bind_eq_ok hins
  unfold pointerLocation
  rw [hsegments]
  exact insertSegments_eq_ok (h segments hsegments) hins

end Paths

/-! ## The copies -/

section Copies

variable {κ τ : Type} [DecidableEq κ] {syn : DocumentSyntax κ}

/-- What holds after the pointers `done` have been copied: the document is the snapshot but
for secrets, each secret of it was copied from its pointer, and each pointer has its
place. -/
structure MergeInv (syn : DocumentSyntax κ) (place : String → Except SnapshotError String)
    (snapshot current : Tree κ τ) (done : List String) (document : Tree κ τ) : Prop where
  strip_eq : document.strip syn.secretKey = snapshot.strip syn.secretKey
  from_current : ∀ l k secret, (∀ step ∈ l, step.isOpen syn.secretKey = true) →
    syn.secretKey k = true → document.get? (l ++ [.key k]) = some secret →
      ∃ pointer ∈ done, ∃ p, place pointer = .ok p ∧ SecretPointer p ∧
        pointerLocation syn snapshot p = some (l, k) ∧
          getPointer syn current pointer = .ok (some secret)
  placed : ∀ pointer ∈ done, ∀ secret, getPointer syn current pointer = .ok (some secret) →
    ∃ p l k, place pointer = .ok p ∧ SecretPointer p ∧
      pointerLocation syn snapshot p = some (l, k) ∧
        (document.get? (l ++ [.key k])).isSome = true

theorem mergeInv_nil {place : String → Except SnapshotError String} {snapshot current : Tree κ τ}
    (h : snapshot.hasSecret syn.secretKey = false) :
    MergeInv syn place snapshot current [] snapshot where
  strip_eq := rfl
  from_current l k secret _ hk hget := by
    rw [Tree.get?_secret_eq_none h hk] at hget
    exact nomatch hget
  placed pointer hpointer := absurd hpointer (List.not_mem_nil)

variable {target : Tree κ τ → String → Except SnapshotError String}
  {place : String → Except SnapshotError String} {snapshot current : Tree κ τ}

/-- **One copy keeps the invariant.** -/
theorem MergeInv.placeSecret {done : List String} {document document' : Tree κ τ}
    {pointer : String} (h : MergeInv syn place snapshot current done document)
    (htarget : target document pointer = place pointer)
    (hsecret : ∀ p, place pointer = .ok p → SecretPointer p)
    (hcopy : placeSecret syn target current document pointer = .ok document') :
    MergeInv syn place snapshot current (done ++ [pointer]) document' := by
  obtain ⟨found, hget, hmatch⟩ := bind_eq_ok hcopy
  cases found with
  | none =>
    -- the current document has nothing there
    obtain rfl := Except.ok.inj hmatch
    refine ⟨h.strip_eq, fun l k s hl hk hs => ?_, fun p hp s hs => ?_⟩
    · obtain ⟨p, hp, hrest⟩ := h.from_current l k s hl hk hs
      exact ⟨p, List.mem_append_left _ hp, hrest⟩
    · rcases List.mem_append.mp hp with hp | hp
      · exact h.placed p hp s hs
      · rw [List.mem_singleton.mp hp, hget] at hs
        exact absurd (Except.ok.inj hs) (by simp)
  | some secret =>
    obtain ⟨p, hp, hins⟩ := bind_eq_ok hmatch
    rw [htarget] at hp
    obtain ⟨l, k, hloc, hput⟩ := insertPointer_eq_ok (hsecret p hp) hins
    obtain ⟨hopen, hkey⟩ := isOpen_of_pointerLocation (hsecret p hp) hloc
    rw [pointerLocation_congr (hsecret p hp) h.strip_eq] at hloc
    refine ⟨(Tree.strip_putMember? hkey hput).trans h.strip_eq, ?_, ?_⟩
    · intro l' k' s hl' hk' hs
      rw [Tree.get?_putMember? hkey hk' hopen hl' hput] at hs
      split at hs
      · next heq =>
        rw [heq.1, heq.2, ← Option.some.inj hs]
        exact ⟨pointer, List.mem_append_right _ (List.mem_singleton_self _), p, hp, hsecret p hp, hloc,
          hget⟩
      · obtain ⟨q, hq, hrest⟩ := h.from_current l' k' s hl' hk' hs
        exact ⟨q, List.mem_append_left _ hq, hrest⟩
    · intro q hq s hs
      rcases List.mem_append.mp hq with hq | hq
      · obtain ⟨p', l', k', hp', hsecret', hloc', hsome⟩ := h.placed q hq s hs
        obtain ⟨hopen', hkey'⟩ := isOpen_of_pointerLocation hsecret' hloc'
        refine ⟨p', l', k', hp', hsecret', hloc', ?_⟩
        rw [Tree.get?_putMember? hkey hkey' hopen hopen' hput]
        split
        · rfl
        · exact hsome
      · obtain rfl := List.mem_singleton.mp hq
        refine ⟨p, l, k, hp, hsecret p hp, hloc, ?_⟩
        rw [Tree.get?_putMember? hkey hkey hopen hopen hput, if_pos ⟨rfl, rfl⟩]
        rfl

/-- **All copies keep the invariant.** -/
theorem mergeInv_foldlM {paths done : List String} {document document' : Tree κ τ}
    (h : MergeInv syn place snapshot current done document)
    (htarget : ∀ pointer ∈ paths, ∀ document : Tree κ τ,
      document.strip syn.secretKey = snapshot.strip syn.secretKey →
        target document pointer = place pointer)
    (hsecret : ∀ pointer ∈ paths, ∀ p, place pointer = .ok p → SecretPointer p)
    (hfold : paths.foldlM (Snapshot.placeSecret syn target current) document = .ok document') :
    MergeInv syn place snapshot current (done ++ paths) document' := by
  induction paths generalizing done document with
  | nil =>
    rw [List.append_nil, ← Except.ok.inj hfold]
    exact h
  | cons pointer paths ih =>
    rw [List.foldlM_cons] at hfold
    obtain ⟨next, hcopy, hrest⟩ := bind_eq_ok hfold
    have hnext := h.placeSecret (htarget pointer (List.mem_cons_self ..) document h.strip_eq)
      (hsecret pointer (List.mem_cons_self ..)) hcopy
    have hall := ih hnext (fun q hq => htarget q (List.mem_cons_of_mem _ hq))
      (fun q hq => hsecret q (List.mem_cons_of_mem _ hq)) hrest
    rw [List.append_assoc] at hall
    exact hall

/-- **Secrets keep their owners**: each secret of the document was copied from the current
document, and each copy leads from an owner to one with the same identity, where the
secret is found. -/
structure KeepsOwners (syn : DocumentSyntax κ)
    (target : Tree κ τ → Tree κ τ → String → Except SnapshotError String)
    (merge : Merge κ τ) : Prop where
  from_current : ∀ l k secret, (∀ step ∈ l, step.isOpen syn.secretKey = true) →
    syn.secretKey k = true → merge.document.get? (l ++ [.key k]) = some secret →
      ∃ pointer ∈ merge.paths, ∃ p, target merge.current merge.document pointer = .ok p ∧
        pointerLocation syn merge.document p = some (l, k) ∧
          getPointer syn merge.current pointer = .ok (some secret)
  same_owner : ∀ pointer ∈ merge.paths, ∀ secret,
    getPointer syn merge.current pointer = .ok (some secret) →
      ∃ p l m k, target merge.current merge.document pointer = .ok p ∧
        pointerLocation syn merge.current pointer = some (l, k) ∧
          pointerLocation syn merge.document p = some (m, k) ∧
            Tree.SameOwner (elementId syn) l m merge.current merge.document ∧
              merge.document.get? (m ++ [.key k]) = some secret

theorem MergeInv.keepsOwners {merge : Merge κ τ}
    {target : Tree κ τ → Tree κ τ → String → Except SnapshotError String}
    (h : MergeInv syn place merge.snapshot merge.current merge.paths merge.document)
    (hpointers : ∀ pointer ∈ merge.paths, SecretPointer pointer)
    (htarget : ∀ pointer ∈ merge.paths, target merge.current merge.document pointer = place pointer)
    (howner : ∀ pointer ∈ merge.paths, ∀ l p m k k', place pointer = .ok p →
      pointerLocation syn merge.current pointer = some (l, k) →
        pointerLocation syn merge.snapshot p = some (m, k') →
          (∃ secret, getPointer syn merge.current pointer = .ok (some secret)) →
            k = k' ∧ Tree.SameOwner (elementId syn) l m merge.current merge.snapshot)
    (hunique : ∀ q ∈ merge.paths, ∀ q' ∈ merge.paths, ∀ p p' l l' m k, place q = .ok p →
      place q' = .ok p' → pointerLocation syn merge.current q = some (l, k) →
        pointerLocation syn merge.current q' = some (l', k) →
          pointerLocation syn merge.snapshot p = some (m, k) →
            pointerLocation syn merge.snapshot p' = some (m, k) →
              Tree.SameOwner (elementId syn) l m merge.current merge.snapshot →
                Tree.SameOwner (elementId syn) l' m merge.current merge.snapshot → l' = l) :
    KeepsOwners syn target merge where
  from_current l k secret hl hk hget := by
    obtain ⟨pointer, hpointer, p, hp, hpsecret, hloc, hcurrent⟩ :=
      h.from_current l k secret hl hk hget
    refine ⟨pointer, hpointer, p, (htarget pointer hpointer).trans hp, ?_, hcurrent⟩
    rw [pointerLocation_congr hpsecret h.strip_eq]
    exact hloc
  same_owner pointer hpointer secret hcurrent := by
    obtain ⟨p, m, k, hp, hpsecret, hploc, hsome⟩ := h.placed pointer hpointer secret hcurrent
    obtain ⟨hopen, hkey⟩ := isOpen_of_pointerLocation hpsecret hploc
    obtain ⟨l, k₁, w, hloc, hw, rfl⟩ := getPointer_eq_some (hpointers pointer hpointer) hcurrent
    obtain ⟨rfl, hsame⟩ := howner pointer hpointer l p m k₁ k hp hloc hploc ⟨_, hcurrent⟩
    refine ⟨p, l, m, k₁, (htarget pointer hpointer).trans hp, hloc, ?_, ?_, ?_⟩
    · rw [pointerLocation_congr hpsecret h.strip_eq]
      exact hploc
    · exact Tree.sameOwner_congr elementId_strip hopen h.strip_eq.symm hsame
    · -- what is found there was copied from the same location
      obtain ⟨found, hfound⟩ := Option.isSome_iff_exists.mp hsome
      obtain ⟨q, hq, p', hp', -, hqloc, hqcurrent⟩ := h.from_current m k₁ found hopen hkey hfound
      obtain ⟨l', k₂, w', hloc', hw', rfl⟩ := getPointer_eq_some (hpointers q hq) hqcurrent
      obtain ⟨rfl, hsame'⟩ := howner q hq l' p' m k₂ k₁ hp' hloc' hqloc ⟨_, hqcurrent⟩
      obtain rfl := hunique pointer hpointer q hq p p' l l' m k₂ hp hp' hloc hloc' hploc hqloc
        hsame hsame'
      rw [hfound, Option.some.inj (hw'.symm.trans hw)]

end Copies

/-! ## What a merge returns -/

section Returns

variable {κ τ : Type} [DecidableEq κ] {syn : DocumentSyntax κ}

/-- **What a merge returns**: the snapshot with the secrets copied into it, as the bytes of
the snapshot where there was nothing to copy, and encoded elsewhere. -/
theorem mergeDocument_eq_ok {read : Bytes → Except ReadError (Tree κ τ)}
    {print : Tree κ τ → Except String Bytes}
    {pathsOf : List String → List String → Except SnapshotError (List String)}
    {target : Tree κ τ → Tree κ τ → String → Except SnapshotError String}
    {displayPath : String} {snapshotBytes currentBytes : Bytes} {redactedPaths : List String}
    {merge : Merge κ τ}
    (h : mergeDocument syn read print pathsOf target displayPath snapshotBytes redactedPaths
      currentBytes = .ok merge) :
    read snapshotBytes = .ok merge.snapshot ∧ read currentBytes = .ok merge.current ∧
      pathsOf redactedPaths ((secretPaths syn merge.current).map encodePointer) =
        .ok merge.paths ∧
      merge.paths.foldlM (placeSecret syn (target merge.current) merge.current) merge.snapshot =
        .ok merge.document ∧
      (redactedPaths = [] ∧ secretPaths syn merge.current = [] ∧ merge.bytes = snapshotBytes ∨
        print merge.document = .ok merge.bytes) := by
  unfold mergeDocument at h
  split at h
  · exact nomatch h
  · exact nomatch h
  · exact nomatch h
  · exact nomatch h
  · next snapshot current hsnapshot hcurrent =>
    obtain ⟨⟨_, sensitive⟩, hredact, h⟩ := bind_eq_ok h
    obtain ⟨paths, hpaths, h⟩ := bind_eq_ok h
    obtain ⟨desired, hfold, h⟩ := bind_eq_ok h
    obtain ⟨-, hsensitive, -⟩ := redact_eq_ok syn hredact
    simp only [List.nil_append] at hsensitive
    rw [hsensitive] at hpaths
    split at h
    · next hempty =>
      obtain rfl := Except.ok.inj h
      refine ⟨hsnapshot, hcurrent, hpaths, hfold, Or.inl ⟨?_, ?_, rfl⟩⟩
      · exact List.isEmpty_iff.mp hempty.1
      · have hnil := List.isEmpty_iff.mp hempty.2
        rwa [hsensitive, List.map_eq_nil_iff] at hnil
    · split at h
      · next bytes hbytes =>
        obtain rfl := Except.ok.inj h
        exact ⟨hsnapshot, hcurrent, hpaths, hfold, Or.inr hbytes⟩
      · exact nomatch h

end Returns

theorem mem_insertPath {path other : String} {paths : List String} :
    other ∈ insertPath path paths ↔ other = path ∨ other ∈ paths := by
  induction paths with
  | nil => simp [insertPath]
  | cons p paths ih =>
    rw [insertPath]
    split
    · next heq => simp [heq]
    · split
      · simp
      · rw [List.mem_cons, ih, List.mem_cons]
        tauto

theorem mem_of_redactionUnion {snapshot current paths : List String}
    (h : redactionUnion snapshot current = .ok paths) :
    ∀ p ∈ paths, p ∈ snapshot ∨ p ∈ current := by
  have hfold : ∀ (todo done : List String), (∀ p ∈ done, p ∈ snapshot ++ current) →
      (∀ p ∈ todo, p ∈ snapshot ++ current) →
      todo.foldlM (fun paths path => do
        validateRedactedPath path
        if (insertPath path paths).length > MAX_REDACTED_PATHS then
          .error (.invalidManifest "redacted path count exceeds bound")
        else pure (insertPath path paths)) done = .ok paths →
      ∀ p ∈ paths, p ∈ snapshot ++ current := by
    intro todo
    induction todo with
    | nil =>
      intro done hdone _ hok
      rw [← Except.ok.inj hok]
      exact hdone
    | cons path todo ih =>
      intro done hdone htodo hok
      rw [List.foldlM_cons] at hok
      obtain ⟨next, hstep, hrest⟩ := bind_eq_ok hok
      obtain ⟨-, -, hstep⟩ := bind_eq_ok hstep
      split at hstep
      · exact nomatch hstep
      · obtain rfl := Except.ok.inj hstep
        refine ih _ (fun p hp => ?_) (fun p hp => htodo p (List.mem_cons_of_mem _ hp)) hrest
        rcases mem_insertPath.mp hp with rfl | hp
        · exact htodo p (List.mem_cons_self ..)
        · exact hdone p hp
  exact fun p hp => List.mem_append.mp
    (hfold _ [] (fun p hp => absurd hp (List.not_mem_nil)) (fun p hp => hp) h p hp)

/-! ## JSON -/

/-- Along the pointer of each secret, the current document and the snapshot have the same
keys, and elements with the same `id` at the same index. -/
def SameElements (merge : Merge String Empty) : Prop :=
  ∀ pointer ∈ merge.paths, ∀ secret,
    getPointer jsonSyntax merge.current pointer = .ok (some secret) →
      ∃ l m k, pointerLocation jsonSyntax merge.current pointer = some (l, k) ∧
        pointerLocation jsonSyntax merge.snapshot pointer = some (m, k) ∧
          Tree.SameOwner (elementId jsonSyntax) l m merge.current merge.snapshot

theorem steps_eq_of_sameOwner {κ τ : Type} [DecidableEq κ] {syn : DocumentSyntax κ}
    {segments : List String} {a b : Tree κ τ} {l m : List (Step κ)} {k k' : κ}
    (ha : segmentsLocation syn a segments = some (l, k))
    (hb : segmentsLocation syn b segments = some (m, k'))
    (h : Tree.SameOwner (elementId syn) l m a b) : l = m := by
  induction segments generalizing a b l m with
  | nil => exact nomatch ha
  | cons segment rest ih =>
    cases rest with
    | nil =>
      rw [segmentsLocation] at ha hb
      split at ha
      · split at hb
        · rw [← (Prod.mk.inj (Option.some.inj ha)).1, ← (Prod.mk.inj (Option.some.inj hb)).1]
        · cases hb
      · cases ha
    | cons next segments =>
      obtain ⟨stepa, ca, l', hstepa, hca, hla, rfl⟩ :=
        (segmentsLocation_cons_eq_some (by simp)).mp ha
      obtain ⟨stepb, cb, m', hstepb, hcb, hmb, rfl⟩ :=
        (segmentsLocation_cons_eq_some (by simp)).mp hb
      cases stepa with
      | key j =>
        cases stepb with
        | index i => exact h.elim
        | key j' =>
          obtain ⟨rfl, a', b', ha', hb', hrest⟩ := h
          obtain rfl := Option.some.inj (hca.symm.trans ha')
          obtain rfl := Option.some.inj (hcb.symm.trans hb')
          rw [ih hla hmb hrest]
      | index i =>
        cases stepb with
        | key j' => exact h.elim
        | index i' =>
          obtain ⟨a', b', ha', hb', -, hrest⟩ := h
          obtain rfl := Option.some.inj (hca.symm.trans ha')
          obtain rfl := Option.some.inj (hcb.symm.trans hb')
          obtain rfl := Option.some.inj
            ((parseUsize_of_segmentStep hstepa).symm.trans (parseUsize_of_segmentStep hstepb))
          rw [ih hla hmb hrest]

variable {codecs}

variable {sanitized : SanitizedContent}

theorem hasSecret_readJson_sanitized {source : Bytes} {displayPath : String} {value : JsonValue}
    (h : sanitizeStructured codecs .json source displayPath = .ok sanitized)
    (hread : codecs.readJson sanitized.bytes = .ok value) : value.hasSecret jsonSyntax.secretKey =
    false := by
  obtain ⟨value', hvalue', -, hnone, hbytes⟩ := sanitizeDocument_eq_ok h
  rcases hbytes with ⟨hempty, hsource⟩ | ⟨-, hprint⟩
  · rw [hsource, hvalue'] at hread
    rw [← Except.ok.inj hread]
    exact hnone.mp hempty
  · unfold DocumentCodecs.readJson at hread
    cases hparse : codecs.json.parse sanitized.bytes with
    | error e => rw [hparse] at hread; exact nomatch hread
    | ok tree =>
      rw [hparse] at hread
      rw [← Except.ok.inj hread, codecs.json.parse_print _ _ _ hprint hparse]
      exact hasSecret_lastWins _ (Tree.hasSecret_strip _ _)

/-- **JSON**: the secrets keep their owners if and only if the elements are the same. -/
theorem keepsOwners_json_iff {source current : Bytes} {displayPath displayPath' : String}
    {merge : Merge String Empty} (hsanitized : sanitizeStructured codecs .json source displayPath =
    .ok sanitized) (h : mergeJson codecs displayPath' sanitized.bytes sanitized.redactedPaths
    current = .ok merge) : KeepsOwners jsonSyntax (fun _ _ pointer => .ok pointer) merge ↔
    SameElements merge := by
  obtain ⟨hsnapshot, -, hpaths, hfold, -⟩ := mergeDocument_eq_ok h
  obtain ⟨value, -, hredacted, -⟩ := sanitizeDocument_eq_ok hsanitized
  have hpointers : ∀ pointer ∈ merge.paths, SecretPointer pointer := by
    intro pointer hpointer
    rcases mem_of_redactionUnion hpaths pointer hpointer with hp | hp
    · rw [hredacted] at hp
      exact secretPointer_of_mem hp
    · exact secretPointer_of_mem hp
  have hnil : MergeInv jsonSyntax .ok merge.snapshot merge.current [] merge.snapshot :=
    mergeInv_nil (hasSecret_readJson_sanitized hsanitized hsnapshot)
  have hinv := mergeInv_foldlM hnil (fun _ _ _ _ => rfl)
    (fun pointer hpointer p hp => Except.ok.inj hp ▸ hpointers pointer hpointer) hfold
  rw [List.nil_append] at hinv
  constructor
  · intro hkeep pointer hpointer secret hsecret
    obtain ⟨p, l, m, k, hp, hloc, hploc, hsame, -⟩ :=
      hkeep.same_owner pointer hpointer secret hsecret
    obtain rfl := Except.ok.inj hp
    have hopen := (isOpen_of_pointerLocation (hpointers _ hpointer) hploc).1
    refine ⟨l, m, k, hloc, ?_, Tree.sameOwner_congr elementId_strip hopen hinv.strip_eq hsame⟩
    rw [← pointerLocation_congr (hpointers _ hpointer) hinv.strip_eq]
    exact hploc
  · intro helements
    -- a pointer with the same owner names the same steps in both documents
    have hsteps : ∀ (pointer : String) (l m : List (Step String)) (k k' : String),
        pointerLocation jsonSyntax merge.current pointer = some (l, k) →
          pointerLocation jsonSyntax merge.snapshot pointer = some (m, k') →
            Tree.SameOwner (elementId jsonSyntax) l m merge.current merge.snapshot → l = m := by
      intro pointer l m k k' hl hm hsame
      unfold pointerLocation at hl hm
      split at hl
      · next segments hsegments =>
        rw [hsegments] at hm
        exact steps_eq_of_sameOwner hl hm hsame
      · exact nomatch hl
    refine hinv.keepsOwners hpointers (fun _ _ => rfl) ?_ ?_
    · rintro pointer hpointer l p m k k' hp hl hm ⟨secret, hsecret⟩
      obtain rfl := Except.ok.inj hp
      obtain ⟨l₁, m₁, k₁, hl₁, hm₁, hsame⟩ := helements pointer hpointer secret hsecret
      obtain ⟨rfl, rfl⟩ := Prod.mk.inj (Option.some.inj (hl.symm.trans hl₁))
      obtain ⟨rfl, rfl⟩ := Prod.mk.inj (Option.some.inj (hm.symm.trans hm₁))
      exact ⟨rfl, hsame⟩
    · intro q hq q' hq' p p' l l' m k hp hp' hl hl' hm hm' hsame hsame'
      obtain rfl := Except.ok.inj hp
      obtain rfl := Except.ok.inj hp'
      rw [hsteps q l m k k hl hm hsame, hsteps q' l' m k k hl' hm' hsame']

/-! ## YAML -/

theorem hasSecret_readYaml_sanitized {source : Bytes} {displayPath : String} {value : YamlValue}
    (h : sanitizeStructured codecs .yaml source displayPath = .ok sanitized)
    (hread : codecs.readYaml sanitized.bytes = .ok value) : value.hasSecret yamlSyntax.secretKey =
    false := by
  have hnone := not_holdsSecret_yaml codecs h
  obtain ⟨tree, hparse, hread⟩ := bind_eq_ok hread
  split at hread
  · exact nomatch hread
  · obtain rfl := Except.ok.inj hread
    rw [← Bool.not_eq_true]
    exact fun hsecret => hnone ⟨tree, hparse, hsecret⟩

theorem eq_of_count_eq_one {α : Type} [BEq α] [LawfulBEq α] {x : α} {xs : List α} {i j : Nat}
    (h : xs.count x = 1) (hi : xs[i]? = some x) (hj : xs[j]? = some x) : j = i := by
  induction xs generalizing i j with
  | nil => exact absurd hi (by simp)
  | cons y xs ih =>
    have hnone : y = x → ∀ n : Nat, xs[n]? ≠ some x := by
      rintro rfl n hn
      rw [List.count_cons_self] at h
      have hmem := List.count_pos_iff.mpr (List.mem_of_getElem? hn)
      omega
    cases i with
    | zero =>
      cases j with
      | zero => rfl
      | succ j => exact absurd hj (hnone (Option.some.inj hi) j)
    | succ i =>
      cases j with
      | zero => exact absurd hi (hnone (Option.some.inj hj) i)
      | succ j =>
        by_cases hy : y = x
        · exact absurd hi (hnone hy i)
        · rw [List.count_cons_of_ne hy] at h
          rw [ih h hi hj]

theorem map_elementId_stripItems {κ τ : Type} [DecidableEq κ] (syn : DocumentSyntax κ)
    (items : List (Tree κ τ)) :
    (Tree.stripItems syn.secretKey items).map (elementId syn) = items.map (elementId syn) := by
  rw [Tree.stripItems_eq_map, List.map_map]
  exact List.map_congr_left fun item _ => elementId_strip item

/-- Remapping does not depend on secret members of the target. -/
theorem remapSegments_strip {pointer : String} {segments : List String}
    (h : IsSecretPath segments) (a b : YamlValue) :
    remapSegments pointer a (b.strip yamlSyntax.secretKey) segments =
      remapSegments pointer a b segments := by
  induction segments generalizing a b with
  | nil => exact h.elim
  | cons segment segments ih =>
    cases a with
    | scalar s => cases b <;> rfl
    | tagged t v => cases b <;> rfl
    | mapping a =>
      cases b with
      | scalar s => rfl
      | tagged t v => rfl
      | sequence b => rfl
      | mapping b =>
        rw [Tree.strip, remapSegments, remapSegments]
        split
        · rfl
        · next hne =>
          obtain ⟨next, rest, rfl⟩ := List.exists_cons_of_ne_nil hne
          have hkey : yamlSyntax.secretKey (.text segment) = false :=
            (yamlSyntax.secretKey_ofString segment).trans h.1
          rw [Tree.lookup_stripMembers yamlSyntax.secretKey hkey]
          cases a.lookup (.text segment) with
          | none => rfl
          | some source =>
            cases b.lookup (.text segment) with
            | none => rfl
            | some target =>
              show (segment :: ·) <$> remapSegments pointer source (target.strip _) _ = _
              rw [ih h.2 source target]
    | sequence a =>
      cases b with
      | scalar s => rfl
      | tagged t v => rfl
      | mapping b => rfl
      | sequence b =>
        rw [Tree.strip, remapSegments, remapSegments, map_elementId_stripItems]
        split
        · rfl
        · next item hitem =>
          split
          · rfl
          · next id hid =>
            split
            · rfl
            · dsimp only
              rw [Tree.stripItems_getElem?]
              cases b[(b.map (elementId yamlSyntax)).idxOf (some id)]? with
              | none => rfl
              | some target =>
                cases segments with
                | nil =>
                  -- a secret path does not end in an index
                  rw [parseUsize_of_isSensitiveKey h] at hitem
                  exact nomatch hitem
                | cons next rest =>
                  show (_ :: ·) <$> remapSegments pointer item (target.strip _) _ = _
                  rw [ih h.2 item target]

/-- **A remapped path leads to the same owner**, and it is the only one with its identity. -/
theorem remapSegments_eq_ok {pointer : String} {segments q : List String}
    (h : IsSecretPath segments) {a b : YamlValue}
    (hq : remapSegments pointer a b segments = .ok q) :
    IsSecretPath q ∧ ∀ l m k k', segmentsLocation yamlSyntax a segments = some (l, k) →
      segmentsLocation yamlSyntax b q = some (m, k') →
        k = k' ∧ Tree.SameOwner (elementId yamlSyntax) l m a b ∧
          Tree.UniqueOwner (elementId yamlSyntax) l a := by
  induction segments generalizing a b q with
  | nil => exact h.elim
  | cons segment segments ih =>
    cases a with
    | scalar s => cases b <;> exact nomatch hq
    | tagged t v => cases b <;> exact nomatch hq
    | mapping a =>
      cases b with
      | scalar s => exact nomatch hq
      | tagged t v => exact nomatch hq
      | sequence b => exact nomatch hq
      | mapping b =>
        rw [remapSegments] at hq
        split at hq
        · next hnil =>
          obtain rfl := hnil
          obtain rfl := Except.ok.inj hq
          refine ⟨h, fun l m k k' hl hm => ?_⟩
          obtain ⟨rfl, rfl⟩ := Prod.mk.inj (Option.some.inj hl)
          obtain ⟨rfl, rfl⟩ := Prod.mk.inj (Option.some.inj hm)
          exact ⟨rfl, trivial, trivial⟩
        · next hne =>
          obtain ⟨next, rest, rfl⟩ := List.exists_cons_of_ne_nil hne
          split at hq
          · next source target hsource htarget =>
            cases hrec : remapSegments pointer source target (next :: rest) with
            | error e => rw [hrec] at hq; exact nomatch hq
            | ok q' =>
              rw [hrec] at hq
              obtain rfl := Except.ok.inj hq
              obtain ⟨hsecret, hrest⟩ := ih h.2 hrec
              refine ⟨isSecretPath_cons h.1 hsecret, fun l m k k' hl hm => ?_⟩
              have hca : (Tree.mapping a : YamlValue).child (.key (.text segment)) =
                  some source := hsource
              have hcb : (Tree.mapping b : YamlValue).child (.key (.text segment)) =
                  some target := htarget
              obtain ⟨step, c, l', hstep, hc, hl', rfl⟩ :=
                (segmentsLocation_cons_eq_some (by simp)).mp hl
              obtain ⟨step', c', m', hstep', hc', hm', rfl⟩ :=
                (segmentsLocation_cons_eq_some hsecret.ne_nil).mp hm
              obtain rfl := Option.some.inj hstep
              obtain rfl := Option.some.inj hstep'
              obtain rfl := Option.some.inj (hca.symm.trans hc)
              obtain rfl := Option.some.inj (hcb.symm.trans hc')
              obtain ⟨hk, hsame, hunique⟩ := hrest l' m' k k' hl' hm'
              exact ⟨hk, ⟨rfl, source, target, hca, hcb, hsame⟩, source, hca, hunique⟩
          · exact nomatch hq
    | sequence a =>
      cases b with
      | scalar s => exact nomatch hq
      | tagged t v => exact nomatch hq
      | mapping b => exact nomatch hq
      | sequence b =>
        rw [remapSegments] at hq
        split at hq
        · exact nomatch hq
        · next item hitem =>
          obtain ⟨i, hi, hitem⟩ := Option.bind_eq_some_iff.mp hitem
          split at hq
          · exact nomatch hq
          · next id hid =>
            have hida : elementId yamlSyntax item = some id := (Option.filter_eq_some_iff.mp hid).1
            split at hq
            · exact nomatch hq
            · next hcount =>
              rw [not_or, not_not, not_not] at hcount
              dsimp only at hq
              split at hq
              · exact nomatch hq
              · next target htarget =>
                cases segments with
                | nil =>
                  rw [parseUsize_of_isSensitiveKey h] at hi
                  exact nomatch hi
                | cons next rest =>
                  cases hrec : remapSegments pointer item target (next :: rest) with
                  | error e => rw [hrec] at hq; exact nomatch hq
                  | ok q' =>
                    rw [hrec] at hq
                    obtain rfl := Except.ok.inj hq
                    obtain ⟨hsecret, hrest⟩ := ih h.2 hrec
                    refine ⟨isSecretPath_cons (not_isSensitiveKey_toString _) hsecret,
                      fun l m k k' hl hm => ?_⟩
                    have hca : (Tree.sequence a : YamlValue).child (.index i) = some item := hitem
                    obtain ⟨step, c, l', hstep, hc, hl', rfl⟩ :=
                      (segmentsLocation_cons_eq_some (by simp)).mp hl
                    obtain ⟨step', c', m', hstep', hc', hm', rfl⟩ :=
                      (segmentsLocation_cons_eq_some hsecret.ne_nil).mp hm
                    rw [segmentStep_sequence, hi] at hstep
                    obtain rfl := Option.some.inj hstep
                    obtain rfl := Option.some.inj (hca.symm.trans hc)
                    rw [segmentStep_sequence] at hstep'
                    obtain ⟨j, hj, rfl⟩ := Option.map_eq_some_iff.mp hstep'
                    obtain rfl := eq_of_parseUsize_toString hj
                    have hcb : (Tree.sequence b : YamlValue).child (.index _) = some target :=
                      htarget
                    obtain rfl := Option.some.inj (hcb.symm.trans hc')
                    obtain ⟨hk, hsame, hunique⟩ := hrest l' m' k k' hl' hm'
                    have hidb : elementId yamlSyntax target = some id := by
                      have hmem := List.count_pos_iff.mp
                        (show 0 < (b.map (elementId yamlSyntax)).count (some id) by omega)
                      have hat := List.getElem?_eq_some_iff.mpr ⟨List.idxOf_lt_length_iff.mpr hmem,
                        List.getElem_idxOf (List.idxOf_lt_length_iff.mpr hmem)⟩
                      rw [List.getElem?_map, htarget] at hat
                      exact Option.some.inj hat
                    refine ⟨hk, ⟨item, target, hca, hcb, hida.trans hidb.symm, hsame⟩, item, hca,
                      hunique, fun j c hc hidc => ?_⟩
                    have hcj : a[j]? = some c := hc
                    refine eq_of_count_eq_one hcount.1 ?_ ?_
                    · rw [List.getElem?_map, hitem, Option.map_some, hida]
                    · rw [List.getElem?_map, hcj, Option.map_some, hidc, hida]

theorem remapYamlSecret_congr {pointer : String} (h : SecretPointer pointer) {a b b' : YamlValue}
    (hb : b.strip yamlSyntax.secretKey = b'.strip yamlSyntax.secretKey) :
    remapYamlSecret a b pointer = remapYamlSecret a b' pointer := by
  unfold remapYamlSecret
  cases hsegments : decodePointer pointer with
  | error e => rfl
  | ok segments =>
    show encodePointer <$> remapSegments pointer a b segments =
      encodePointer <$> remapSegments pointer a b' segments
    rw [← remapSegments_strip (h segments hsegments) a b, hb,
      remapSegments_strip (h segments hsegments) a b']

theorem remapYamlSecret_eq_ok {pointer p : String} (h : SecretPointer pointer) {a b : YamlValue}
    (hp : remapYamlSecret a b pointer = .ok p) :
    SecretPointer p ∧ ∀ l m k k', pointerLocation yamlSyntax a pointer = some (l, k) →
      pointerLocation yamlSyntax b p = some (m, k') →
        k = k' ∧ Tree.SameOwner (elementId yamlSyntax) l m a b ∧
          Tree.UniqueOwner (elementId yamlSyntax) l a := by
  obtain ⟨segments, hsegments, hp⟩ := bind_eq_ok hp
  cases hq : remapSegments pointer a b segments with
  | error e => rw [hq] at hp; exact nomatch hp
  | ok q =>
    rw [hq] at hp
    obtain rfl := Except.ok.inj hp
    obtain ⟨hsecret, hrest⟩ := remapSegments_eq_ok (h segments hsegments) hq
    refine ⟨secretPointer_encodePointer hsecret, fun l m k k' hl hm => hrest l m k k' ?_ ?_⟩
    · unfold pointerLocation at hl
      rw [hsegments] at hl
      exact hl
    · unfold pointerLocation at hm
      split at hm
      · next decoded hdecoded =>
        rw [decodePointer_encodePointer hsecret.ne_nil
          (validateRedactedPath_of_decodePointer hdecoded)] at hdecoded
        rw [Except.ok.inj hdecoded]
        exact hm
      · exact nomatch hm

/-- **YAML**: the secrets keep their owners. -/
theorem keepsOwners_yaml {source current : Bytes} {displayPath displayPath' : String}
    {merge : Merge YamlKey String} (hsanitized :
    sanitizeStructured codecs .yaml source displayPath = .ok sanitized)
    (h : mergeYaml codecs displayPath' sanitized.bytes sanitized.redactedPaths current =
    .ok merge) : KeepsOwners yamlSyntax remapYamlSecret merge := by
  obtain ⟨hsnapshot, -, hpaths, hfold, -⟩ := mergeDocument_eq_ok h
  have hpointers : ∀ pointer ∈ merge.paths, SecretPointer pointer := by
    rw [← Except.ok.inj hpaths]
    exact fun pointer hpointer => secretPointer_of_mem hpointer
  have hnil : MergeInv yamlSyntax (remapYamlSecret merge.current merge.snapshot) merge.snapshot
      merge.current [] merge.snapshot :=
    mergeInv_nil (hasSecret_readYaml_sanitized hsanitized hsnapshot)
  have hinv := mergeInv_foldlM hnil
    (fun pointer hpointer _ hstrip => remapYamlSecret_congr (hpointers pointer hpointer) hstrip)
    (fun pointer hpointer p hp => (remapYamlSecret_eq_ok (hpointers pointer hpointer) hp).1) hfold
  rw [List.nil_append] at hinv
  refine hinv.keepsOwners hpointers
    (fun pointer hpointer => remapYamlSecret_congr (hpointers pointer hpointer) hinv.strip_eq) ?_ ?_
  · rintro pointer hpointer l p m k k' hp hl hm -
    obtain ⟨hk, hsame, -⟩ := (remapYamlSecret_eq_ok (hpointers pointer hpointer) hp).2 l m k k' hl hm
    exact ⟨hk, hsame⟩
  · intro q hq q' hq' p p' l l' m k hp hp' hl hl' hm hm' hsame hsame'
    obtain ⟨-, -, hunique⟩ := (remapYamlSecret_eq_ok (hpointers q hq) hp).2 l m k k hl hm
    exact hunique.eq hsame hsame'

/-! ## Both formats -/

/-- The bytes of a merge are those of its document. -/
def Merge.IsEncoded {κ τ : Type} (print : Tree κ τ → Except String Bytes) (snapshotBytes : Bytes)
    (merge : Merge κ τ) : Prop :=
  print merge.document = .ok merge.bytes ∨
    merge.document = merge.snapshot ∧ merge.bytes = snapshotBytes

theorem isEncoded_of_mergeDocument {κ τ : Type} [DecidableEq κ] {syn : DocumentSyntax κ}
    {read : Bytes → Except ReadError (Tree κ τ)} {print : Tree κ τ → Except String Bytes}
    {pathsOf : List String → List String → Except SnapshotError (List String)}
    {target : Tree κ τ → Tree κ τ → String → Except SnapshotError String}
    {displayPath : String} {snapshotBytes currentBytes : Bytes} {redactedPaths : List String}
    {merge : Merge κ τ} (hnil : pathsOf [] [] = .ok [])
    (h : mergeDocument syn read print pathsOf target displayPath snapshotBytes redactedPaths
      currentBytes = .ok merge) :
    merge.IsEncoded print snapshotBytes := by
  obtain ⟨-, -, hpaths, hfold, ⟨hr, hs, hbytes⟩ | hprint⟩ := mergeDocument_eq_ok h
  · rw [hr, hs, List.map_nil, hnil] at hpaths
    rw [← Except.ok.inj hpaths] at hfold
    exact Or.inr ⟨(Except.ok.inj hfold).symm, hbytes⟩
  · exact Or.inl hprint

/-- **When merged secrets keep their owners**: always in YAML, and in JSON if and only if
the current document and the snapshot have the same elements along each copied pointer. -/
theorem mergeCurrentSecrets_keepsOwners_iff (codecs : DocumentCodecs)
    (policy : SnapshotFilePolicy) (source current result : Bytes) (sanitized : SanitizedContent)
    (hsanitized : sanitizeStructured codecs policy.format source policy.manifestPath =
      .ok sanitized)
    (h : mergeCurrentSecrets codecs policy sanitized.bytes sanitized.redactedPaths (some current) =
      .ok result) :
    (policy.format = .json ∧ ∃ merge,
      mergeJson codecs policy.manifestPath sanitized.bytes sanitized.redactedPaths current =
        .ok merge ∧
      merge.bytes = result ∧ merge.IsEncoded codecs.json.print sanitized.bytes ∧
      (KeepsOwners jsonSyntax (fun _ _ pointer => .ok pointer) merge ↔ SameElements merge)) ∨
    (policy.format = .yaml ∧ ∃ merge,
      mergeYaml codecs policy.manifestPath sanitized.bytes sanitized.redactedPaths current =
        .ok merge ∧
      merge.bytes = result ∧ merge.IsEncoded codecs.yaml.print sanitized.bytes ∧
      KeepsOwners yamlSyntax remapYamlSecret merge) := by
  unfold mergeCurrentSecrets at h
  cases hformat : policy.format with
  | json =>
    rw [hformat] at hsanitized h
    dsimp only at h
    cases hmerge : mergeJson codecs policy.manifestPath sanitized.bytes sanitized.redactedPaths
        current with
    | error e => rw [hmerge] at h; exact nomatch h
    | ok merge =>
      rw [hmerge] at h
      exact Or.inl ⟨rfl, merge, rfl, Except.ok.inj h, isEncoded_of_mergeDocument rfl hmerge,
        keepsOwners_json_iff hsanitized hmerge⟩
  | yaml =>
    rw [hformat] at hsanitized h
    dsimp only at h
    cases hmerge : mergeYaml codecs policy.manifestPath sanitized.bytes sanitized.redactedPaths
        current with
    | error e => rw [hmerge] at h; exact nomatch h
    | ok merge =>
      rw [hmerge] at h
      exact Or.inr ⟨rfl, merge, rfl, Except.ok.inj h, isEncoded_of_mergeDocument rfl hmerge,
        keepsOwners_yaml hsanitized hmerge⟩

/-! ## A list whose element was replaced -/

def capturedList : Bytes := ascii "[\x7b\"id\":\"a\",\"token\":\"A\"\x7d]"
def sanitizedList : Bytes := ascii "[\x7b\"id\":\"a\"\x7d]"
def currentList : Bytes := ascii "[\x7b\"id\":\"b\",\"token\":\"B\"\x7d]"
def mergedList : Bytes := ascii "[\x7b\"id\":\"a\",\"token\":\"B\"\x7d]"

def oneElement (id token : String) : JsonValue :=
  .sequence [.mapping [("id", .scalar (.text id)), ("token", .scalar (.text token))]]

/-- What the JSON parser and encoder do on the four texts. -/
def listJson : DocumentCodec String Empty where
  parse bytes :=
    if bytes = capturedList then
      .ok (oneElement "a" "A")
    else if bytes = currentList then
      .ok (oneElement "b" "B")
    else if bytes = sanitizedList then .ok (.sequence [.mapping [("id", .scalar (.text "a"))]])
    else if bytes = mergedList then
      .ok (oneElement "a" "B")
    else .error (.invalid "expected value at line 1 column 1")
  print
    | .sequence [.mapping [("id", .scalar (.text "a"))]] => .ok sanitizedList
    | .sequence [.mapping [("id", .scalar (.text "a")), ("token", .scalar (.text "B"))]] =>
        .ok mergedList
    | _ => .error "not one of the texts"
  parse_print t bytes t' hprint hparse := by
    split at hprint
    · rw [← Except.ok.inj hprint] at hparse
      exact (Except.ok.inj hparse).symm
    · rw [← Except.ok.inj hprint] at hparse
      exact (Except.ok.inj hparse).symm
    · exact nomatch hprint

def listCodecs : DocumentCodecs := { sampleCodecs with json := listJson }

theorem mergeCurrentSecrets_replacedElement : ∃ merge,
    mergeJson listCodecs "profile/.dsh-market/state.json" sanitizedList ["/0/token"] currentList =
      .ok merge ∧ merge.bytes = mergedList ∧
      (KeepsOwners jsonSyntax (fun _ _ pointer => .ok pointer) merge ↔ SameElements merge) := by
  rcases mergeCurrentSecrets_keepsOwners_iff listCodecs (FILE_POLICY 4) capturedList currentList
    mergedList ⟨sanitizedList, ["/0/token"]⟩ rfl rfl with ⟨-, merge, hmerge, hbytes, -, hiff⟩ | h
  · exact ⟨merge, hmerge, hbytes, hiff⟩
  · exact nomatch h.1

/-- The secret of the element `b` is placed into the element `a`. -/
theorem mergeCurrentSecrets_moves_secret : ∃ merge,
    sanitizeStructured listCodecs .json capturedList "profile/.dsh-market/state.json" =
      .ok ⟨sanitizedList, ["/0/token"]⟩ ∧
    mergeJson listCodecs "profile/.dsh-market/state.json" sanitizedList ["/0/token"] currentList =
      .ok merge ∧
    ¬ KeepsOwners jsonSyntax (fun _ _ pointer => .ok pointer) merge := by
  refine ⟨⟨.sequence [.mapping [("id", .scalar (.text "a"))]], oneElement "b" "B", ["/0/token"],
    oneElement "a" "B", mergedList⟩, rfl, rfl, fun hkeep => ?_⟩
  have hlocation : ∀ id token, pointerLocation jsonSyntax (oneElement id token) "/0/token" =
      some ([.index 0], "token") := fun _ _ => rfl
  obtain ⟨p, l, m, k, hp, hl, hm, hsame, -⟩ :=
    hkeep.same_owner "/0/token" (List.mem_singleton_self _) (.scalar (.text "B")) rfl
  obtain rfl := Except.ok.inj hp
  obtain ⟨rfl, rfl⟩ := Prod.mk.inj (Option.some.inj (hl.symm.trans (hlocation _ _)))
  obtain ⟨rfl, -⟩ := Prod.mk.inj (Option.some.inj (hm.symm.trans (hlocation _ _)))
  obtain ⟨b, a, hb, ha, hid, -⟩ := hsame
  obtain rfl := Option.some.inj hb
  obtain rfl := Option.some.inj ha
  exact absurd hid (by decide)

end DshNexus.Snapshot
