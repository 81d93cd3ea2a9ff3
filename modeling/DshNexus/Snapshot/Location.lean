import DshNexus.Snapshot.Capture

/-!
# Pointers into documents

`crates/nexus-snapshots/src/validation.rs`: reading and writing the member that a pointer
names.  A pointer is a list of texts, and what a text means depends on the container it
meets; `segmentsLocation` is the location it names in a given document.

* `getSegments_eq_some`, `insertSegments_eq_ok`: reading and writing at the location.
* `segmentsLocation_congr`: the location does not depend on secret members.
-/

namespace DshNexus.Snapshot

open Document (Tree Step Scalar)

/-! ## Pointers into documents -/

section Pointers

variable {κ τ : Type} [DecidableEq κ] (syn : DocumentSyntax κ)

def segmentStep (value : Tree κ τ) (segment : String) : Option (Step κ) :=
  match value.untag with
  | .mapping _ => some (.key (syn.ofString segment))
  | .sequence _ => (parseUsize segment).map .index
  | _ => none

/-- The walk of `get_json_pointer` and `get_yaml_pointer`. -/
def getSegments (pointer : String) :
    Tree κ τ → List String → Except SnapshotError (Option (Tree κ τ))
  | value, [] => .ok (some value.untag)
  | value, segment :: segments =>
      match value.untag with
      | .mapping members =>
          match members.lookup (syn.ofString segment) with
          | some child => getSegments pointer child segments
          | none => .ok none
      | .sequence items =>
          match parseUsize segment with
          | none => .error (.invalidManifest (syn.invalidArrayPath ++ pointer))
          | some index =>
              match items[index]? with
              | some child => getSegments pointer child segments
              | none => .ok none
      | _ => .ok none

/-- `get_json_pointer` and `get_yaml_pointer`. -/
def getPointer (value : Tree κ τ) (pointer : String) :
    Except SnapshotError (Option (Tree κ τ)) := do
  let segments ← decodePointer pointer
  getSegments syn pointer value segments

/-- The walk of `insert_json_pointer` and `insert_yaml_pointer`. -/
def insertSegments (pointer : String) :
    Tree κ τ → List String → Tree κ τ → Except SnapshotError (Tree κ τ)
  | _, [], _ => .error (.invalidManifest ("empty secret path: " ++ pointer))
  | value, [last], secret =>
      match value.untag with
      | .mapping _ => .ok (value.setMember syn.before (syn.ofString last) secret)
      | .sequence items =>
          match parseUsize last with
          | none =>
              .error (.structuredData pointer "cannot preserve secret at non-numeric array index")
          | some index =>
              if index < items.length then .ok (value.setChild (.index index) secret)
              else
                .error (.structuredData pointer
                  "cannot preserve secret because array shape changed")
      | _ =>
          .error (.structuredData pointer "cannot preserve secret because its container changed")
  | value, segment :: next :: segments, secret =>
      match segmentStep syn value segment with
      | none =>
          .error (.structuredData pointer
            "cannot preserve secret because its parent path changed")
      | some step =>
          match value.child step with
          | none =>
              .error (.structuredData pointer
                "cannot preserve secret because its parent path changed")
          | some child => do
              let child ← insertSegments pointer child (next :: segments) secret
              pure (value.setChild step child)

/-- `insert_json_pointer` and `insert_yaml_pointer`. -/
def insertPointer (value : Tree κ τ) (pointer : String) (secret : Tree κ τ) :
    Except SnapshotError (Tree κ τ) := do
  let segments ← decodePointer pointer
  insertSegments syn pointer value segments secret

/-- The text at the member `id` of an element. -/
def elementId (item : Tree κ τ) : Option String :=
  (item.child (.key (syn.ofString "id"))).bind fun id =>
    match id.untag with
    | .scalar (.text s) => some s
    | _ => none

/-- The location that segments name: the steps to the owner, and the key in it. -/
def segmentsLocation : Tree κ τ → List String → Option (List (Step κ) × κ)
  | _, [] => none
  | value, [last] => if value.isMapping = true then some ([], syn.ofString last) else none
  | value, segment :: next :: segments =>
      (segmentStep syn value segment).bind fun step =>
        (value.child step).bind fun child =>
          (segmentsLocation child (next :: segments)).map fun l => (step :: l.1, l.2)

/-- The path ends in a sensitive key and passes through none before. -/
def IsSecretPath : List String → Prop
  | [] => False
  | [last] => isSensitiveKey last = true
  | segment :: next :: segments => isSensitiveKey segment = false ∧ IsSecretPath (next :: segments)

variable {syn}

theorem IsSecretPath.ne_nil {segments : List String} (h : IsSecretPath segments) :
    segments ≠ [] := by
  rintro rfl
  exact h

omit [DecidableEq κ] in
@[simp] theorem segmentStep_mapping (members : List (κ × Tree κ τ)) (segment : String) :
    segmentStep syn (.mapping members) segment = some (.key (syn.ofString segment)) := rfl

omit [DecidableEq κ] in
@[simp] theorem segmentStep_sequence (items : List (Tree κ τ)) (segment : String) :
    segmentStep (κ := κ) syn (.sequence items) segment = (parseUsize segment).map .index := rfl

theorem segmentsLocation_cons_eq_some {value : Tree κ τ} {segment : String}
    {segments : List String} (hne : segments ≠ []) {l : List (Step κ)} {k : κ} :
    segmentsLocation syn value (segment :: segments) = some (l, k) ↔
      ∃ step child l', segmentStep syn value segment = some step ∧
        value.child step = some child ∧ segmentsLocation syn child segments = some (l', k) ∧
          l = step :: l' := by
  obtain ⟨next, rest, rfl⟩ := List.exists_cons_of_ne_nil hne
  rw [segmentsLocation, Option.bind_eq_some_iff]
  constructor
  · rintro ⟨step, hstep, h⟩
    obtain ⟨child, hchild, h⟩ := Option.bind_eq_some_iff.mp h
    obtain ⟨⟨l', k'⟩, hloc, heq⟩ := Option.map_eq_some_iff.mp h
    obtain ⟨rfl, rfl⟩ := Prod.mk.inj heq
    exact ⟨step, child, l', hstep, hchild, hloc, rfl⟩
  · rintro ⟨step, child, l', hstep, hchild, hloc, rfl⟩
    refine ⟨step, hstep, ?_⟩
    rw [hchild, Option.bind_some, hloc]
    rfl

omit [DecidableEq κ] in
theorem isOpen_segmentStep {value : Tree κ τ} {segment : String} {step : Step κ}
    (h : segmentStep syn value segment = some step) (hs : isSensitiveKey segment = false) :
    step.isOpen syn.secretKey = true := by
  unfold segmentStep at h
  split at h
  · rw [← Option.some.inj h, Step.isOpen, syn.secretKey_ofString, hs]
    rfl
  · obtain ⟨i, -, rfl⟩ := Option.map_eq_some_iff.mp h
    rfl
  · cases h

omit [DecidableEq κ] in
theorem segmentStep_strip (secret : κ → Bool) (value : Tree κ τ) (segment : String) :
    segmentStep syn (value.strip secret) segment = segmentStep syn value segment := by
  unfold segmentStep
  rw [Tree.untag_strip]
  cases value.untag <;> rfl

theorem segmentsLocation_strip {segments : List String} (h : IsSecretPath segments)
    (value : Tree κ τ) :
    segmentsLocation syn (value.strip syn.secretKey) segments =
      segmentsLocation syn value segments := by
  induction segments generalizing value with
  | nil => rfl
  | cons segment rest ih =>
    cases rest with
    | nil => rw [segmentsLocation, segmentsLocation, Tree.isMapping_strip]
    | cons next segments =>
      rw [segmentsLocation, segmentsLocation, segmentStep_strip]
      cases hstep : segmentStep syn value segment with
      | none => rfl
      | some step =>
        rw [Option.bind_some, Option.bind_some, Tree.child_strip (isOpen_segmentStep hstep h.1)]
        cases value.child step with
        | none => rfl
        | some child => rw [Option.map_some, Option.bind_some, Option.bind_some, ih h.2]

theorem segmentsLocation_congr {segments : List String} (h : IsSecretPath segments)
    {a b : Tree κ τ} (hab : a.strip syn.secretKey = b.strip syn.secretKey) :
    segmentsLocation syn a segments = segmentsLocation syn b segments := by
  rw [← segmentsLocation_strip h a, hab, segmentsLocation_strip h b]

theorem isOpen_of_segmentsLocation {segments : List String} (h : IsSecretPath segments)
    {value : Tree κ τ} {l : List (Step κ)} {k : κ}
    (hl : segmentsLocation syn value segments = some (l, k)) :
    (∀ step ∈ l, step.isOpen syn.secretKey = true) ∧ syn.secretKey k = true := by
  induction segments generalizing value l with
  | nil => exact h.elim
  | cons segment rest ih =>
    cases rest with
    | nil =>
      rw [segmentsLocation] at hl
      split at hl
      · obtain ⟨rfl, rfl⟩ := Prod.mk.inj (Option.some.inj hl)
        exact ⟨fun _ hmem => absurd hmem (List.not_mem_nil), (syn.secretKey_ofString _).trans h⟩
      · exact nomatch hl
    | cons next segments =>
      obtain ⟨step, child, l', hstep, -, hloc, rfl⟩ :=
        (segmentsLocation_cons_eq_some (by simp)).mp hl
      obtain ⟨hopen, hkey⟩ := ih h.2 hloc
      refine ⟨fun s hs => ?_, hkey⟩
      rcases List.mem_cons.mp hs with rfl | hs
      · exact isOpen_segmentStep hstep h.1
      · exact hopen s hs

/-- **Reading a secret path**: what is found is the node at the location, without its
tags. -/
theorem getSegments_eq_some {pointer : String} {segments : List String}
    (h : IsSecretPath segments) {value secret : Tree κ τ}
    (hget : getSegments syn pointer value segments = .ok (some secret)) :
    ∃ l k w, segmentsLocation syn value segments = some (l, k) ∧
      value.get? (l ++ [.key k]) = some w ∧ secret = w.untag := by
  induction segments generalizing value with
  | nil => exact h.elim
  | cons segment rest ih =>
    rw [getSegments] at hget
    split at hget
    · next members hvalue =>
      split at hget
      · next child hchild =>
        have hstep : segmentStep syn value segment = some (.key (syn.ofString segment)) := by
          rw [segmentStep, hvalue]
        have hchild' : value.child (.key (syn.ofString segment)) = some child :=
          (Tree.child_key hvalue _).trans hchild
        cases rest with
        | nil =>
          rw [getSegments] at hget
          refine ⟨[], syn.ofString segment, child, ?_, ?_, ?_⟩
          · rw [segmentsLocation, if_pos (by rw [Tree.isMapping, hvalue])]
          · rw [List.nil_append, Tree.get?_cons, hchild']
            rfl
          · exact (Option.some.inj (Except.ok.inj hget)).symm
        | cons next segments =>
          obtain ⟨l, k, w, hloc, hw, hsecret⟩ := ih h.2 hget
          refine ⟨.key (syn.ofString segment) :: l, k, w, ?_, ?_, hsecret⟩
          · exact (segmentsLocation_cons_eq_some (by simp)).mpr
              ⟨_, child, l, hstep, hchild', hloc, rfl⟩
          · rw [List.cons_append, Tree.get?_cons, hchild']
            exact hw
      · cases hget
    · next items hvalue =>
      split at hget
      · cases hget
      · next index hindex =>
        split at hget
        · next child hchild =>
          cases rest with
          | nil => exact absurd hindex (by rw [parseUsize_of_isSensitiveKey h]; simp)
          | cons next segments =>
            have hstep : segmentStep syn value segment = some (.index index) := by
              rw [segmentStep, hvalue]
              exact congrArg (Option.map Step.index) hindex
            have hchild' : value.child (.index index) = some child :=
              (Tree.child_index hvalue _).trans hchild
            obtain ⟨l, k, w, hloc, hw, hsecret⟩ := ih h.2 hget
            refine ⟨.index index :: l, k, w, ?_, ?_, hsecret⟩
            · exact (segmentsLocation_cons_eq_some (by simp)).mpr
                ⟨_, child, l, hstep, hchild', hloc, rfl⟩
            · rw [List.cons_append, Tree.get?_cons, hchild']
              exact hw
        · cases hget
    · cases hget

/-- **Writing a secret path** sets the member at the location. -/
theorem insertSegments_eq_ok {pointer : String} {segments : List String}
    (h : IsSecretPath segments) {value value' secret : Tree κ τ}
    (hins : insertSegments syn pointer value segments secret = .ok value') :
    ∃ l k, segmentsLocation syn value segments = some (l, k) ∧
      value.putMember? syn.before l k secret = some value' := by
  induction segments generalizing value value' with
  | nil => exact h.elim
  | cons segment rest ih =>
    cases rest with
    | nil =>
      rw [insertSegments] at hins
      split at hins
      · next members hvalue =>
        have hmap : value.isMapping = true := by rw [Tree.isMapping, hvalue]
        refine ⟨[], syn.ofString segment, ?_, ?_⟩
        · rw [segmentsLocation, if_pos hmap]
        · rw [Tree.putMember?, if_pos hmap, Except.ok.inj hins]
      · rw [parseUsize_of_isSensitiveKey h] at hins
        cases hins
      · cases hins
    | cons next segments =>
      rw [insertSegments] at hins
      split at hins
      · cases hins
      · next step hstep =>
        split at hins
        · cases hins
        · next child hchild =>
          obtain ⟨child', hrest, hpure⟩ := bind_eq_ok hins
          obtain ⟨l, k, hloc, hput⟩ := ih h.2 hrest
          refine ⟨step :: l, k, ?_, ?_⟩
          · exact (segmentsLocation_cons_eq_some (by simp)).mpr
              ⟨step, child, l, hstep, hchild, hloc, rfl⟩
          · rw [Tree.putMember?, hchild, Option.bind_some, hput, Option.map_some]
            exact congrArg some (Except.ok.inj hpure)

omit [DecidableEq κ] in
theorem parseUsize_of_segmentStep {value : Tree κ τ} {segment : String} {i : Nat}
    (h : segmentStep syn value segment = some (.index i)) : parseUsize segment = some i := by
  unfold segmentStep at h
  split at h
  · exact absurd (Option.some.inj h) (by simp)
  · obtain ⟨n, hn, hstep⟩ := Option.map_eq_some_iff.mp h
    rw [hn, Step.index.inj hstep]
  · exact nomatch h

theorem elementId_strip (value : Tree κ τ) :
    elementId syn (value.strip syn.secretKey) = elementId syn value := by
  have hopen : (Step.key (syn.ofString "id")).isOpen syn.secretKey = true := by
    rw [Step.isOpen, syn.secretKey_ofString]
    decide
  rw [elementId, elementId, Tree.child_strip hopen]
  cases value.child (.key (syn.ofString "id")) with
  | none => rfl
  | some id =>
    rw [Option.map_some, Option.bind_some, Option.bind_some, Tree.untag_strip]
    cases id.untag <;> rfl

end Pointers

end DshNexus.Snapshot
