import DshNexus.Snapshot.Secrets
import DshNexus.Snapshot.Staging

/-!
# Merging with a current file that holds no secret

`merge_current_secrets` where the current document has no sensitive member: nothing is copied, and
what is encoded is the document that the snapshot holds.  The merge can still fail on the shape of
the current document.

1. `lastWins_of_canonical`: the value of a JSON text, printed and read again, is the same value.
2. `getSegments_eq_ok_iff`: the lookup of a path succeeds unless a segment that is no index meets a
   sequence (`Passable`).
3. `redact_eq_ok_iff`: redaction of a document without secrets succeeds where all keys are texts.
4. `merge_absent_iff`.
-/

namespace DshNexus.Snapshot

open Document (Tree Step Scalar)

/-! ## 1. Values that are read -/

mutual

/-- The keys of every object are in order, without repetition. -/
def Canonical : JsonValue → Prop
  | .scalar _ => True
  | .sequence items => CanonicalItems items
  | .mapping members => (members.map Prod.fst).Pairwise (· < ·) ∧ CanonicalMembers members
  | .tagged _ v => Canonical v

def CanonicalItems : List JsonValue → Prop
  | [] => True
  | v :: vs => Canonical v ∧ CanonicalItems vs

def CanonicalMembers : List (String × JsonValue) → Prop
  | [] => True
  | (_, v) :: ms => Canonical v ∧ CanonicalMembers ms

end

section InsertMember

variable {k : String} {v : JsonValue} {ms : List (String × JsonValue)}

theorem mem_keys_insertMember {x : String}
    (h : x ∈ (Tree.insertMember jsonSyntax.before k v ms).map Prod.fst) :
    x = k ∨ x ∈ ms.map Prod.fst := by
  induction ms with
  | nil => exact Or.inl (List.mem_singleton.mp h)
  | cons m ms ih =>
    obtain ⟨j, w⟩ := m
    rw [Tree.insertMember] at h
    split at h
    · exact (List.mem_cons.mp h).imp_right (List.mem_cons_of_mem _)
    · split at h
      · exact List.mem_cons.mp h
      · rcases List.mem_cons.mp h with rfl | h
        · exact Or.inr List.mem_cons_self
        · exact (ih h).imp_right (List.mem_cons_of_mem _)

theorem sorted_insertMember (h : (ms.map Prod.fst).Pairwise (· < ·)) :
    ((Tree.insertMember jsonSyntax.before k v ms).map Prod.fst).Pairwise (· < ·) := by
  induction ms with
  | nil => exact List.pairwise_singleton _ _
  | cons m ms ih =>
    obtain ⟨j, w⟩ := m
    rw [List.map_cons, List.pairwise_cons] at h
    obtain ⟨hfirst, hrest⟩ := h
    rw [Tree.insertMember]
    split
    · next hj =>
      rw [List.map_cons, List.pairwise_cons, ← hj]
      exact ⟨hfirst, hrest⟩
    · next hj =>
      split
      · next hbefore =>
        have hlt : k < j := of_decide_eq_true hbefore
        rw [List.map_cons, List.pairwise_cons, List.map_cons, List.pairwise_cons]
        refine ⟨fun x hx => ?_, hfirst, hrest⟩
        rcases List.mem_cons.mp hx with rfl | hx
        · exact hlt
        · exact hlt.trans (hfirst x hx)
      · next hbefore =>
        have hlt : j < k := by
          have hle : ¬ k < j := fun hlt => hbefore (decide_eq_true hlt)
          exact lt_of_le_of_ne (not_lt.mp hle) hj
        rw [List.map_cons, List.pairwise_cons]
        refine ⟨fun x hx => ?_, ih hrest⟩
        rcases mem_keys_insertMember hx with rfl | hx
        · exact hlt
        · exact hfirst x hx

theorem canonicalMembers_insertMember (hv : Canonical v) (h : CanonicalMembers ms) :
    CanonicalMembers (Tree.insertMember jsonSyntax.before k v ms) := by
  induction ms with
  | nil => exact ⟨hv, trivial⟩
  | cons m ms ih =>
    obtain ⟨j, w⟩ := m
    rw [Tree.insertMember]
    split
    · exact ⟨hv, h.2⟩
    · split
      · exact ⟨hv, h⟩
      · exact ⟨h.1, ih h.2⟩

theorem insertMember_append (h : ∀ x ∈ ms.map Prod.fst, x < k) :
    Tree.insertMember jsonSyntax.before k v ms = ms ++ [(k, v)] := by
  induction ms with
  | nil => rfl
  | cons m ms ih =>
    obtain ⟨j, w⟩ := m
    have hlt : j < k := h j List.mem_cons_self
    have hbefore : ¬ jsonSyntax.before k j = true := fun hb =>
      absurd (of_decide_eq_true hb) (not_lt.mpr hlt.le)
    rw [Tree.insertMember, if_neg hlt.ne, if_neg hbefore,
      ih fun x hx => h x (List.mem_cons_of_mem _ hx), List.cons_append]

end InsertMember

mutual

theorem canonical_lastWins : ∀ t : JsonValue, Canonical (lastWins t)
  | .scalar _ => trivial
  | .sequence items => canonicalItems_lastWins items
  | .mapping members => canonicalMembers_lastWins members [] List.Pairwise.nil trivial
  | .tagged _ v => canonical_lastWins v

theorem canonicalItems_lastWins : ∀ vs : List JsonValue, CanonicalItems (lastWinsItems vs)
  | [] => trivial
  | v :: vs => ⟨canonical_lastWins v, canonicalItems_lastWins vs⟩

theorem canonicalMembers_lastWins : ∀ (ms map : List (String × JsonValue)),
    (map.map Prod.fst).Pairwise (· < ·) → CanonicalMembers map →
      ((lastWinsMembers ms map).map Prod.fst).Pairwise (· < ·) ∧
        CanonicalMembers (lastWinsMembers ms map)
  | [], _, hsorted, hmembers => ⟨hsorted, hmembers⟩
  | (_, v) :: ms, _, hsorted, hmembers =>
    canonicalMembers_lastWins ms _ (sorted_insertMember hsorted)
      (canonicalMembers_insertMember (canonical_lastWins v) hmembers)

end

mutual

/-- **A value that was read is its own value.** -/
theorem lastWins_of_canonical : ∀ t : JsonValue, Canonical t → lastWins t = t
  | .scalar _, _ => rfl
  | .sequence items, h => congrArg Tree.sequence (lastWinsItems_of_canonical items h)
  | .mapping members, h => by
    rw [lastWins, lastWinsMembers_of_canonical members [] h.1 h.2, List.nil_append]
  | .tagged t v, h => congrArg (Tree.tagged t) (lastWins_of_canonical v h)

theorem lastWinsItems_of_canonical : ∀ vs : List JsonValue, CanonicalItems vs →
    lastWinsItems vs = vs
  | [], _ => rfl
  | v :: vs, h => by
    rw [lastWinsItems, lastWins_of_canonical v h.1, lastWinsItems_of_canonical vs h.2]

theorem lastWinsMembers_of_canonical : ∀ ms map : List (String × JsonValue),
    ((map ++ ms).map Prod.fst).Pairwise (· < ·) → CanonicalMembers ms →
      lastWinsMembers ms map = map ++ ms
  | [], map, _, _ => (List.append_nil map).symm
  | (k, v) :: ms, map, hsorted, hmembers => by
    have hbehind : ∀ x ∈ map.map Prod.fst, x < k := by
      rw [List.map_append, List.pairwise_append] at hsorted
      exact fun x hx => hsorted.2.2 x hx k List.mem_cons_self
    rw [lastWinsMembers, lastWins_of_canonical v hmembers.1, insertMember_append hbehind]
    have hsorted' : ((map ++ [(k, v)] ++ ms).map Prod.fst).Pairwise (· < ·) := by
      rwa [List.append_assoc]
    rw [lastWinsMembers_of_canonical ms _ hsorted' hmembers.2, List.append_assoc]
    rfl

end

theorem mem_keys_stripMembers {secret : String → Bool} {ms : List (String × JsonValue)} {x : String}
    (h : x ∈ (Tree.stripMembers secret ms).map Prod.fst) : x ∈ ms.map Prod.fst := by
  induction ms with
  | nil => exact h
  | cons m ms ih =>
    obtain ⟨j, w⟩ := m
    rw [Tree.stripMembers] at h
    split at h
    · exact List.mem_cons_of_mem _ (ih h)
    · rcases List.mem_cons.mp h with rfl | h
      · exact List.mem_cons_self
      · exact List.mem_cons_of_mem _ (ih h)

section Strip

variable (secret : String → Bool)

mutual

theorem canonical_strip : ∀ t : JsonValue, Canonical t → Canonical (t.strip secret)
  | .scalar _, _ => trivial
  | .sequence items, h => canonicalItems_strip items h
  | .mapping members, h => canonicalMembers_strip members h.1 h.2
  | .tagged _ v, h => canonical_strip v h

theorem canonicalItems_strip : ∀ vs : List JsonValue,
    CanonicalItems vs → CanonicalItems (Tree.stripItems secret vs)
  | [], _ => trivial
  | v :: vs, h => ⟨canonical_strip v h.1, canonicalItems_strip vs h.2⟩

theorem canonicalMembers_strip : ∀ ms : List (String × JsonValue),
    (ms.map Prod.fst).Pairwise (· < ·) → CanonicalMembers ms →
      ((Tree.stripMembers secret ms).map Prod.fst).Pairwise (· < ·) ∧
        CanonicalMembers (Tree.stripMembers secret ms)
  | [], _, _ => ⟨List.Pairwise.nil, trivial⟩
  | (k, v) :: ms, hsorted, hmembers => by
    rw [List.map_cons, List.pairwise_cons] at hsorted
    obtain ⟨hrest, hcanonical⟩ := canonicalMembers_strip ms hsorted.2 hmembers.2
    rw [Tree.stripMembers]
    split
    · exact ⟨hrest, hcanonical⟩
    · refine ⟨?_, canonical_strip v hmembers.1, hcanonical⟩
      rw [List.map_cons, List.pairwise_cons]
      exact ⟨fun x hx => hsorted.1 x (mem_keys_stripMembers hx), hrest⟩

end

end Strip

variable {codecs : DocumentCodecs}

theorem canonical_of_readJson {bytes : Bytes} {value : JsonValue}
    (h : codecs.readJson bytes = .ok value) : Canonical value := by
  unfold DocumentCodecs.readJson at h
  cases hparse : codecs.json.parse bytes with
  | error e =>
    rw [hparse] at h
    cases h
  | ok tree =>
    rw [hparse] at h
    rw [← Except.ok.inj h]
    exact canonical_lastWins tree

theorem readJson_of_print {value value' : JsonValue} {bytes : Bytes} (hcanonical : Canonical value)
    (hprint : codecs.json.print value = .ok bytes) (hread : codecs.readJson bytes = .ok value') :
    value' = value := by
  unfold DocumentCodecs.readJson at hread
  cases hparse : codecs.json.parse bytes with
  | error e =>
    rw [hparse] at hread
    cases hread
  | ok tree =>
    rw [hparse] at hread
    rw [← Except.ok.inj hread, codecs.json.parse_print _ _ _ hprint hparse]
    exact lastWins_of_canonical value hcanonical

theorem readYaml_of_print {value value' : YamlValue} {bytes : Bytes}
    (hprint : codecs.yaml.print value = .ok bytes) (hread : codecs.readYaml bytes = .ok value') :
    value' = value := by
  obtain ⟨tree, hparse, hread⟩ := bind_eq_ok hread
  split at hread
  · cases hread
  · rw [← Except.ok.inj hread]
    exact codecs.yaml.parse_print _ _ _ hprint hparse

/-! ## 2. Lookups in a document of another shape -/

section Lookup

variable {κ τ : Type} [DecidableEq κ] {syn : DocumentSyntax κ}

/-- No segment of the path meets a sequence unless it is an index. -/
def Passable (syn : DocumentSyntax κ) : Tree κ τ → List String → Prop
  | _, [] => True
  | value, segment :: segments =>
      match value.untag with
      | .mapping members => ∀ child, members.lookup (syn.ofString segment) = some child →
          Passable syn child segments
      | .sequence items => ∃ index, parseUsize segment = some index ∧
          ∀ child, items[index]? = some child → Passable syn child segments
      | _ => True

/-- **A lookup succeeds**, with a node or with nothing, if and only if the path can be passed. -/
theorem getSegments_eq_ok_iff {pointer : String} {segments : List String} {value : Tree κ τ} :
    (∃ found, getSegments syn pointer value segments = .ok found) ↔
      Passable syn value segments := by
  induction segments generalizing value with
  | nil => exact iff_of_true ⟨_, rfl⟩ trivial
  | cons segment segments ih =>
    rw [getSegments, Passable]
    cases value.untag with
    | scalar s => exact iff_of_true ⟨_, rfl⟩ trivial
    | tagged t v => exact iff_of_true ⟨_, rfl⟩ trivial
    | mapping members =>
      dsimp only
      cases hchild : members.lookup (syn.ofString segment) with
      | none => exact iff_of_true ⟨_, rfl⟩ (by simp)
      | some child => simpa using ih
    | sequence items =>
      dsimp only
      cases hindex : parseUsize segment with
      | none => exact iff_of_false (by simp) (by simp)
      | some index =>
        dsimp only
        cases hchild : items[index]? with
        | none => exact iff_of_true ⟨_, rfl⟩ ⟨index, rfl, by simp [hchild]⟩
        | some child => simpa [hchild] using ih

theorem getPointer_eq_none {pointer : String} {value : Tree κ τ} {segments : List String}
    (hvalue : value.hasSecret syn.secretKey = false) (hpointer : SecretPointer pointer)
    (hsegments : decodePointer pointer = .ok segments) (h : Passable syn value segments) :
    getPointer syn value pointer = .ok none := by
  obtain ⟨found, hfound⟩ := getSegments_eq_ok_iff.mpr h
  have hget : getPointer syn value pointer = .ok found := by
    unfold getPointer
    rw [hsegments]
    exact hfound
  cases found with
  | none => exact hget
  | some secret =>
    obtain ⟨l, k, w, hl, hw, -⟩ := getPointer_eq_some hpointer hget
    rw [Tree.get?_secret_eq_none hvalue (isOpen_of_pointerLocation hpointer hl).2] at hw
    cases hw

theorem passable_of_placeSecret {target : Tree κ τ → String → Except SnapshotError String}
    {value desired desired' : Tree κ τ} {pointer : String}
    (h : placeSecret syn target value desired pointer = .ok desired') :
    ∃ segments, decodePointer pointer = .ok segments ∧ Passable syn value segments := by
  obtain ⟨found, hfound, -⟩ := bind_eq_ok h
  obtain ⟨segments, hsegments, hget⟩ := bind_eq_ok hfound
  exact ⟨segments, hsegments, getSegments_eq_ok_iff.mp ⟨found, hget⟩⟩

theorem foldlM_placeSecret {target : Tree κ τ → String → Except SnapshotError String}
    {value desired : Tree κ τ} {paths : List String}
    (h : ∀ pointer ∈ paths, getPointer syn value pointer = .ok none) :
    paths.foldlM (placeSecret syn target value) desired = .ok desired := by
  induction paths with
  | nil => rfl
  | cons pointer paths ih =>
    have hplace : placeSecret syn target value desired pointer = .ok desired := by
      unfold placeSecret
      rw [h pointer List.mem_cons_self]
      rfl
    rw [List.foldlM_cons, hplace]
    exact ih fun p hp => h p (List.mem_cons_of_mem _ hp)

end Lookup

/-! ## 3. Redaction of a document without secrets -/

section Keys

variable {κ τ : Type} (syn : DocumentSyntax κ)

mutual

/-- Every key of the document, at any depth, is a text. -/
def keysAreTexts : Tree κ τ → Bool
  | .scalar _ => true
  | .sequence items => keysAreTextsItems items
  | .mapping members => keysAreTextsMembers members
  | .tagged _ v => keysAreTexts v

def keysAreTextsItems : List (Tree κ τ) → Bool
  | [] => true
  | v :: vs => keysAreTexts v && keysAreTextsItems vs

def keysAreTextsMembers : List (κ × Tree κ τ) → Bool
  | [] => true
  | (k, v) :: ms => (syn.asStr k).isSome && keysAreTexts v && keysAreTextsMembers ms

end

mutual

/-- **Redaction of a document without secrets** fails on a key that is no text, and on nothing
else. -/
theorem redact_eq_ok_iff : ∀ (t : Tree κ τ) (path redacted : List String),
    t.hasSecret syn.secretKey = false →
      ((∃ r, redact syn t path redacted = .ok r) ↔ keysAreTexts syn t = true)
  | .scalar s, path, redacted, _ => iff_of_true ⟨_, rfl⟩ rfl
  | .sequence items, path, redacted, h => by
    rw [keysAreTexts, ← redactItems_eq_ok_iff items 0 path redacted h]
    constructor
    · rintro ⟨r, hr⟩
      obtain ⟨r', hr', -⟩ := bind_eq_ok hr
      exact ⟨r', hr'⟩
    · rintro ⟨r, hr⟩
      exact ⟨_, bind_eq_ok_iff.mpr ⟨r, hr, rfl⟩⟩
  | .mapping members, path, redacted, h => by
    rw [keysAreTexts, ← redactMembers_eq_ok_iff members path redacted h]
    constructor
    · rintro ⟨r, hr⟩
      obtain ⟨r', hr', -⟩ := bind_eq_ok hr
      exact ⟨r', hr'⟩
    · rintro ⟨r, hr⟩
      exact ⟨_, bind_eq_ok_iff.mpr ⟨r, hr, rfl⟩⟩
  | .tagged t v, path, redacted, h => by
    rw [keysAreTexts, ← redact_eq_ok_iff v path redacted h]
    constructor
    · rintro ⟨r, hr⟩
      obtain ⟨r', hr', -⟩ := bind_eq_ok hr
      exact ⟨r', hr'⟩
    · rintro ⟨r, hr⟩
      exact ⟨_, bind_eq_ok_iff.mpr ⟨r, hr, rfl⟩⟩

theorem redactItems_eq_ok_iff : ∀ (items : List (Tree κ τ)) (index : Nat)
    (path redacted : List String), Tree.hasSecretItems syn.secretKey items = false →
      ((∃ r, redactItems syn items index path redacted = .ok r) ↔
        keysAreTextsItems syn items = true)
  | [], _, _, _, _ => iff_of_true ⟨_, rfl⟩ rfl
  | item :: items, index, path, redacted, h => by
    rw [Tree.hasSecretItems, Bool.or_eq_false_iff] at h
    rw [keysAreTextsItems, Bool.and_eq_true,
      ← redact_eq_ok_iff item (path ++ [toString index]) redacted h.1]
    constructor
    · rintro ⟨r, hr⟩
      obtain ⟨r₁, hr₁, hr⟩ := bind_eq_ok hr
      obtain ⟨r₂, hr₂, -⟩ := bind_eq_ok hr
      exact ⟨⟨r₁, hr₁⟩, (redactItems_eq_ok_iff items _ path _ h.2).mp ⟨r₂, hr₂⟩⟩
    · rintro ⟨⟨r₁, hr₁⟩, hrest⟩
      obtain ⟨r₂, hr₂⟩ := (redactItems_eq_ok_iff items (index + 1) path r₁.2 h.2).mpr hrest
      exact ⟨_, bind_eq_ok_iff.mpr ⟨r₁, hr₁, bind_eq_ok_iff.mpr ⟨r₂, hr₂, rfl⟩⟩⟩

theorem redactMembers_eq_ok_iff : ∀ (members : List (κ × Tree κ τ))
    (path redacted : List String), Tree.hasSecretMembers syn.secretKey members = false →
      ((∃ r, redactMembers syn members path redacted = .ok r) ↔
        keysAreTextsMembers syn members = true)
  | [], _, _, _ => iff_of_true ⟨_, rfl⟩ rfl
  | (k, v) :: members, path, redacted, h => by
    rw [Tree.hasSecretMembers, Bool.or_eq_false_iff, Bool.or_eq_false_iff] at h
    obtain ⟨⟨hkey, hv⟩, hmembers⟩ := h
    rw [keysAreTextsMembers, redactMembers]
    cases htext : syn.asStr k with
    | none => exact iff_of_false (by simp) (by simp)
    | some keyText =>
      have hopen : ¬ isSensitiveKey keyText = true := by
        rw [DocumentSyntax.secretKey, htext] at hkey
        simpa using hkey
      dsimp only
      rw [if_neg hopen, Option.isSome_some, Bool.true_and, Bool.and_eq_true,
        ← redact_eq_ok_iff v (path ++ [keyText]) redacted hv]
      constructor
      · rintro ⟨r, hr⟩
        obtain ⟨r₁, hr₁, hr⟩ := bind_eq_ok hr
        obtain ⟨r₂, hr₂, -⟩ := bind_eq_ok hr
        exact ⟨⟨r₁, hr₁⟩, (redactMembers_eq_ok_iff members path _ hmembers).mp ⟨r₂, hr₂⟩⟩
      · rintro ⟨⟨r₁, hr₁⟩, hrest⟩
        obtain ⟨r₂, hr₂⟩ := (redactMembers_eq_ok_iff members path r₁.2 hmembers).mpr hrest
        exact ⟨_, bind_eq_ok_iff.mpr ⟨r₁, hr₁, bind_eq_ok_iff.mpr ⟨r₂, hr₂, rfl⟩⟩⟩

end

mutual

theorem keysAreTexts_json : ∀ t : JsonValue, keysAreTexts jsonSyntax t = true
  | .scalar _ => rfl
  | .sequence items => keysAreTextsItems_json items
  | .mapping members => keysAreTextsMembers_json members
  | .tagged _ v => keysAreTexts_json v

theorem keysAreTextsItems_json : ∀ vs : List JsonValue, keysAreTextsItems jsonSyntax vs = true
  | [] => rfl
  | v :: vs => by
    rw [keysAreTextsItems, keysAreTexts_json v, keysAreTextsItems_json vs]
    rfl

theorem keysAreTextsMembers_json : ∀ ms : List (String × JsonValue),
    keysAreTextsMembers jsonSyntax ms = true
  | [] => rfl
  | (_, v) :: ms => by
    rw [keysAreTextsMembers, keysAreTexts_json v, keysAreTextsMembers_json ms]
    rfl

end

end Keys

/-! ## 4. The merge -/

theorem length_insertPath_le (path : String) (paths : List String) :
    (insertPath path paths).length ≤ paths.length + 1 := by
  induction paths with
  | nil => simp [insertPath]
  | cons p paths ih =>
    rw [insertPath]
    split
    · exact Nat.le_succ _
    · split
      · exact Nat.le_refl _
      · rw [List.length_cons, List.length_cons]
        omega

theorem redactionUnion_of_valid {snapshot : List String}
    (hvalid : ∀ path ∈ snapshot, validateRedactedPath path = .ok ())
    (hlength : snapshot.length ≤ MAX_REDACTED_PATHS) :
    ∃ paths, redactionUnion snapshot [] = .ok paths := by
  have hfold : ∀ todo done : List String, (∀ p ∈ todo, validateRedactedPath p = .ok ()) →
      done.length + todo.length ≤ MAX_REDACTED_PATHS → ∃ paths,
      todo.foldlM (fun paths path => do
        validateRedactedPath path
        if (insertPath path paths).length > MAX_REDACTED_PATHS then
          .error (.invalidManifest "redacted path count exceeds bound")
        else pure (insertPath path paths)) done = .ok paths := by
    intro todo
    induction todo with
    | nil => exact fun done _ _ => ⟨done, rfl⟩
    | cons path todo ih =>
      intro done hpaths hcount
      have hgrow := length_insertPath_le path done
      rw [List.length_cons] at hcount
      obtain ⟨paths, hrest⟩ := ih (insertPath path done)
        (fun p hp => hpaths p (List.mem_cons_of_mem _ hp)) (by omega)
      refine ⟨paths, ?_⟩
      rw [List.foldlM_cons, hpaths path List.mem_cons_self]
      refine bind_eq_ok_iff.mpr ⟨insertPath path done, ?_, hrest⟩
      exact if_neg (by omega)
  unfold redactionUnion
  rw [List.append_nil]
  exact hfold snapshot [] hvalid (by simpa using hlength)

theorem mem_redactionUnion {snapshot current paths : List String}
    (h : redactionUnion snapshot current = .ok paths) : ∀ p ∈ snapshot, p ∈ paths := by
  have hfold : ∀ todo done : List String,
      todo.foldlM (fun paths path => do
        validateRedactedPath path
        if (insertPath path paths).length > MAX_REDACTED_PATHS then
          .error (.invalidManifest "redacted path count exceeds bound")
        else pure (insertPath path paths)) done = .ok paths →
      ∀ p, p ∈ done ∨ p ∈ todo → p ∈ paths := by
    intro todo
    induction todo with
    | nil =>
      intro done hok p hp
      rw [← Except.ok.inj hok]
      exact hp.resolve_right List.not_mem_nil
    | cons path todo ih =>
      intro done hok p hp
      rw [List.foldlM_cons] at hok
      obtain ⟨next, hstep, hrest⟩ := bind_eq_ok hok
      obtain ⟨-, -, hstep⟩ := bind_eq_ok hstep
      split at hstep
      · cases hstep
      · obtain rfl := Except.ok.inj hstep
        refine ih _ hrest p ?_
        rw [mem_insertPath]
        rcases hp with hp | hp
        · exact Or.inl (Or.inr hp)
        · rcases List.mem_cons.mp hp with rfl | hp
          · exact Or.inl (Or.inl rfl)
          · exact Or.inr hp
  exact fun p hp => hfold _ [] h p (Or.inr (List.mem_append_left _ hp))

theorem redact_of_noSecret {κ τ : Type} {syn : DocumentSyntax κ} {t : Tree κ τ}
    (h : t.hasSecret syn.secretKey = false) (hkeys : keysAreTexts syn t = true) :
    ∃ t', redact syn t [] [] = .ok (t', []) := by
  obtain ⟨⟨t', redacted⟩, hredact⟩ := (redact_eq_ok_iff syn t [] [] h).mpr hkeys
  obtain ⟨-, hpaths, hnone⟩ := redact_eq_ok syn hredact
  rw [hnone.mpr h] at hpaths
  exact ⟨t', by rw [hredact, hpaths]; rfl⟩

section Document

variable {κ τ : Type} [DecidableEq κ] {syn : DocumentSyntax κ}
  {read : Bytes → Except ReadError (Tree κ τ)} {print : Tree κ τ → Except String Bytes}
  {pathsOf : List String → List String → Except SnapshotError (List String)}
  {target : Tree κ τ → Tree κ τ → String → Except SnapshotError String} {displayPath : String}
  {snapshotBytes currentBytes : Bytes} {redactedPaths paths : List String} {value cur : Tree κ τ}

/-- **A merge without secrets** returns the bytes of the snapshot. -/
theorem mergeDocument_absent (hvalue : read snapshotBytes = .ok value)
    (hcur : read currentBytes = .ok cur) (hnone : cur.hasSecret syn.secretKey = false)
    (hkeys : keysAreTexts syn cur = true) (hpaths : pathsOf redactedPaths [] = .ok paths)
    (hget : ∀ pointer ∈ paths, getPointer syn cur pointer = .ok none)
    (hprint : redactedPaths ≠ [] → print value = .ok snapshotBytes) :
    mergeDocument syn read print pathsOf target displayPath snapshotBytes redactedPaths
      currentBytes = .ok ⟨value, cur, paths, value, snapshotBytes⟩ := by
  obtain ⟨t', hredact⟩ := redact_of_noSecret hnone hkeys
  unfold mergeDocument
  rw [hvalue, hcur]
  dsimp only
  refine bind_eq_ok_iff.mpr ⟨(t', []), hredact, ?_⟩
  refine bind_eq_ok_iff.mpr ⟨paths, hpaths, ?_⟩
  refine bind_eq_ok_iff.mpr ⟨value, foldlM_placeSecret hget, ?_⟩
  by_cases hempty : redactedPaths = []
  · rw [hempty]
    rfl
  · have hsome : ¬ (redactedPaths.isEmpty = true ∧ ([] : List String).isEmpty = true) :=
      fun h => hempty (List.isEmpty_iff.mp h.1)
    rw [if_neg hsome, hprint hempty]
    rfl

end Document

theorem exists_of_map_eq_ok {ε α β : Type} {f : α → β} {x : Except ε α} {b : β}
    (h : f <$> x = .ok b) : ∃ a, x = .ok a := by
  cases x with
  | ok a => exact ⟨a, rfl⟩
  | error e => cases h

section Formats

variable {source current : Bytes} {displayPath displayPath' : String}
  {sanitized : SanitizedContent}

/-- **JSON**: a merge that succeeds has looked up every redacted path. -/
theorem passable_of_mergeJson {merge : Merge String Empty} {cur : JsonValue}
    (hcur : codecs.readJson current = .ok cur)
    (h : mergeJson codecs displayPath' sanitized.bytes sanitized.redactedPaths current =
      .ok merge) :
    ∀ pointer ∈ sanitized.redactedPaths, ∃ segments, decodePointer pointer = .ok segments ∧
      Passable jsonSyntax cur segments := by
  intro pointer hpointer
  obtain ⟨-, hcurrent, hpaths, hfold, -⟩ := mergeDocument_eq_ok h
  obtain rfl := Except.ok.inj (hcur.symm.trans hcurrent)
  obtain ⟨d, d', hplace⟩ := exists_ok_of_foldlM hfold pointer
    (mem_redactionUnion hpaths pointer hpointer)
  exact passable_of_placeSecret hplace

/-- **JSON**: where every redacted path can be looked up, the merge returns the snapshot. -/
theorem mergeJson_absent {value cur : JsonValue}
    (hcapture : sanitizeStructured codecs .json source displayPath = .ok sanitized)
    (hvalue : codecs.readJson sanitized.bytes = .ok value) (hcur : codecs.readJson current = .ok cur)
    (hnone : cur.hasSecret jsonSyntax.secretKey = false)
    (hpassable : ∀ pointer ∈ sanitized.redactedPaths, ∃ segments,
      decodePointer pointer = .ok segments ∧ Passable jsonSyntax cur segments) :
    ∃ paths, mergeJson codecs displayPath' sanitized.bytes sanitized.redactedPaths current =
      .ok ⟨value, cur, paths, value, sanitized.bytes⟩ := by
  have hlength := (sanitizeDocument_paths hcapture).1
  obtain ⟨original, horiginal, hredacted, -, hbytes⟩ := sanitizeDocument_eq_ok hcapture
  have hvalid : ∀ path ∈ sanitized.redactedPaths, validateRedactedPath path = .ok () := by
    intro path hpath
    obtain ⟨segments, hsegments, -⟩ := hpassable path hpath
    exact validateRedactedPath_of_decodePointer hsegments
  obtain ⟨paths, hpaths⟩ := redactionUnion_of_valid hvalid hlength
  refine ⟨paths, mergeDocument_absent hvalue hcur hnone (keysAreTexts_json cur) hpaths ?_ ?_⟩
  · intro pointer hpointer
    have hmem := (mem_of_redactionUnion hpaths pointer hpointer).resolve_right List.not_mem_nil
    obtain ⟨segments, hsegments, hpass⟩ := hpassable pointer hmem
    have hsecret : SecretPointer pointer := by
      rw [hredacted] at hmem
      exact secretPointer_of_mem hmem
    exact getPointer_eq_none hnone hsecret hsegments hpass
  · intro hne
    rcases hbytes with ⟨hempty, -⟩ | ⟨-, hprint⟩
    · rw [hredacted, hempty] at hne
      exact absurd rfl hne
    · have hcanonical := canonical_strip jsonSyntax.secretKey original
        (canonical_of_readJson horiginal)
      rw [readJson_of_print hcanonical hprint hvalue]
      exact hprint

/-- **YAML**: a merge that succeeds has found texts as keys. -/
theorem keysAreTexts_of_mergeYaml {merge : Merge YamlKey String} {cur : YamlValue}
    (hcur : codecs.readYaml current = .ok cur) (hnone : cur.hasSecret yamlSyntax.secretKey = false)
    (h : mergeYaml codecs displayPath' sanitized.bytes sanitized.redactedPaths current =
      .ok merge) : keysAreTexts yamlSyntax cur = true := by
  rw [← redact_eq_ok_iff yamlSyntax cur [] [] hnone]
  obtain ⟨hsnapshot, -, -⟩ := mergeDocument_eq_ok h
  unfold mergeYaml mergeDocument at h
  rw [hsnapshot, hcur] at h
  obtain ⟨r, hr, -⟩ := bind_eq_ok h
  exact ⟨r, hr⟩

/-- **YAML**: where every key is a text, the merge returns the snapshot. -/
theorem mergeYaml_absent {value cur : YamlValue}
    (hcapture : sanitizeStructured codecs .yaml source displayPath = .ok sanitized)
    (hvalue : codecs.readYaml sanitized.bytes = .ok value) (hcur : codecs.readYaml current = .ok cur)
    (hnone : cur.hasSecret yamlSyntax.secretKey = false)
    (hkeys : keysAreTexts yamlSyntax cur = true) :
    mergeYaml codecs displayPath' sanitized.bytes sanitized.redactedPaths current =
      .ok ⟨value, cur, [], value, sanitized.bytes⟩ := by
  obtain ⟨original, horiginal, hredacted, -, hbytes⟩ := sanitizeDocument_eq_ok hcapture
  refine mergeDocument_absent hvalue hcur hnone hkeys rfl ?_ ?_
  · exact fun pointer hpointer => absurd hpointer List.not_mem_nil
  · intro hne
    rcases hbytes with ⟨hempty, -⟩ | ⟨-, hprint⟩
    · rw [hredacted, hempty] at hne
      exact absurd rfl hne
    · rw [readYaml_of_print hprint hvalue]
      exact hprint

end Formats

/-- A current file without secrets: it is read, and its value has no sensitive member. -/
def Secretless {κ τ : Type} (syn : DocumentSyntax κ) (read : Bytes → Except ReadError (Tree κ τ))
    (bytes : Bytes) (cur : Tree κ τ) : Prop :=
  read bytes = .ok cur ∧ cur.hasSecret syn.secretKey = false

/-- **A current file that holds no secret.**  The merge of a captured file with it returns a text of
the value of the snapshot, unless, for JSON, a redacted path cannot be looked up in it, or, for
YAML, it has a key that is no text. -/
theorem merge_absent_iff (codecs : DocumentCodecs) (policy : SnapshotFilePolicy)
    (source current : Bytes) (sanitized : SanitizedContent)
    (hcapture : sanitizeStructured codecs policy.format source policy.manifestPath =
      .ok sanitized) :
    (policy.format = .json → ∀ value cur, codecs.readJson sanitized.bytes = .ok value →
      Secretless jsonSyntax codecs.readJson current cur →
        ((∃ bytes, mergeCurrentSecrets codecs policy sanitized.bytes sanitized.redactedPaths
            (some current) = .ok bytes ∧ codecs.readJson bytes = .ok value) ↔
          ∀ pointer ∈ sanitized.redactedPaths, ∃ segments,
            decodePointer pointer = .ok segments ∧ Passable jsonSyntax cur segments)) ∧
    (policy.format = .yaml → ∀ value cur, codecs.readYaml sanitized.bytes = .ok value →
      Secretless yamlSyntax codecs.readYaml current cur →
        ((∃ bytes, mergeCurrentSecrets codecs policy sanitized.bytes sanitized.redactedPaths
            (some current) = .ok bytes ∧ codecs.readYaml bytes = .ok value) ↔
          keysAreTexts yamlSyntax cur = true)) := by
  constructor
  · intro hformat value cur hvalue hcur
    rw [hformat] at hcapture
    have hmerge : mergeCurrentSecrets codecs policy sanitized.bytes sanitized.redactedPaths
        (some current) = Merge.bytes <$> mergeJson codecs policy.manifestPath sanitized.bytes
          sanitized.redactedPaths current := by
      unfold mergeCurrentSecrets
      rw [hformat]
    rw [hmerge]
    constructor
    · rintro ⟨bytes, hbytes, -⟩
      obtain ⟨merge, hok⟩ := exists_of_map_eq_ok hbytes
      exact passable_of_mergeJson hcur.1 hok
    · intro hpassable
      have hjson : ∃ paths, mergeJson codecs policy.manifestPath sanitized.bytes
          sanitized.redactedPaths current = .ok ⟨value, cur, paths, value, sanitized.bytes⟩ :=
        mergeJson_absent hcapture hvalue hcur.1 hcur.2 hpassable
      obtain ⟨paths, hok⟩ := hjson
      exact ⟨sanitized.bytes, by rw [hok]; rfl, hvalue⟩
  · intro hformat value cur hvalue hcur
    rw [hformat] at hcapture
    have hmerge : mergeCurrentSecrets codecs policy sanitized.bytes sanitized.redactedPaths
        (some current) = Merge.bytes <$> mergeYaml codecs policy.manifestPath sanitized.bytes
          sanitized.redactedPaths current := by
      unfold mergeCurrentSecrets
      rw [hformat]
    rw [hmerge]
    constructor
    · rintro ⟨bytes, hbytes, -⟩
      obtain ⟨merge, hok⟩ := exists_of_map_eq_ok hbytes
      exact keysAreTexts_of_mergeYaml hcur.1 hcur.2 hok
    · intro hkeys
      have hok : mergeYaml codecs policy.manifestPath sanitized.bytes sanitized.redactedPaths
          current = .ok ⟨value, cur, [], value, sanitized.bytes⟩ :=
        mergeYaml_absent hcapture hvalue hcur.1 hcur.2 hkeys
      exact ⟨sanitized.bytes, by rw [hok]; rfl, hvalue⟩

/-! ### Two current files without secrets -/

/-- The member is gone and nothing is copied. -/
theorem merge_absent_strippedText : ∃ bytes,
    mergeCurrentSecrets sampleCodecs (FILE_POLICY 0) strippedText ["/token"] (some strippedText) =
      .ok bytes ∧ sampleCodecs.readJson bytes = .ok strippedTree := by
  refine ((merge_absent_iff sampleCodecs (FILE_POLICY 0) plainText strippedText
    ⟨strippedText, ["/token"]⟩ rfl).1 rfl strippedTree strippedTree rfl ⟨rfl, rfl⟩).mpr ?_
  intro pointer hpointer
  rw [List.mem_singleton.mp hpointer]
  refine ⟨["token"], rfl, ?_⟩
  intro child hchild
  cases hchild

def nestedText : Bytes := ascii "\x7b\"a\":\x7b\"token\":\"x\"\x7d\x7d"
def emptiedText : Bytes := ascii "\x7b\n  \"a\": \x7b\x7d\n\x7d"
def arrayText : Bytes := ascii "\x7b\"a\":[]\x7d"
def plainYaml : Bytes := ascii "b: 1\n"
def numberedYaml : Bytes := ascii "1: x\n"

/-- What the parsers and encoders do on the texts. -/
def shapeCodecs : DocumentCodecs where
  json :=
    { parse := fun bytes =>
        if bytes = nestedText then .ok (.mapping [("a", .mapping [("token", .scalar (.text "x"))])])
        else if bytes = emptiedText then .ok (.mapping [("a", .mapping [])])
        else if bytes = arrayText then .ok (.mapping [("a", .sequence [])])
        else .error (.invalid "expected value at line 1 column 1")
      print := fun tree =>
        match tree with
        | .mapping [("a", .mapping [])] => .ok emptiedText
        | _ => .error "not one of the texts"
      parse_print := by
        intro t bytes t' hprint hparse
        split at hprint
        · rw [← Except.ok.inj hprint] at hparse
          exact (Except.ok.inj hparse).symm
        · cases hprint }
  yaml :=
    { parse := fun bytes =>
        if bytes = plainYaml then .ok (.mapping [(.text "b", .scalar (.number "1"))])
        else if bytes = numberedYaml then .ok (.mapping [(.other "1", .scalar (.text "x"))])
        else .error (.invalid "did not find expected node content")
      print := fun _ => .error "not one of the texts"
      parse_print := by
        intro t bytes t' hprint hparse
        cases hprint }

/-- A current file without secrets blocks the restore: in JSON by an array where the snapshot had
an object with a secret, and in YAML by a key that is a number. -/
theorem absent_secret_blocks_restore :
    (sanitizeStructured shapeCodecs .json nestedText (FILE_POLICY 0).manifestPath =
        .ok ⟨emptiedText, ["/a/token"]⟩ ∧
      (∃ cur, Secretless jsonSyntax shapeCodecs.readJson arrayText cur) ∧
      mergeCurrentSecrets shapeCodecs (FILE_POLICY 0) emptiedText ["/a/token"] (some arrayText) =
        .error (.invalidManifest "invalid array path: /a/token")) ∧
    (sanitizeStructured shapeCodecs .yaml plainYaml (FILE_POLICY 5).manifestPath =
        .ok ⟨plainYaml, []⟩ ∧
      (∃ cur, Secretless yamlSyntax shapeCodecs.readYaml numberedYaml cur) ∧
      mergeCurrentSecrets shapeCodecs (FILE_POLICY 5) plainYaml [] (some numberedYaml) =
        .error (.structuredData "" "non-string YAML mapping key cannot be tracked safely")) :=
  ⟨⟨rfl, ⟨_, rfl, rfl⟩, rfl⟩, rfl, ⟨_, rfl, rfl⟩, rfl⟩

end DshNexus.Snapshot
