import DshNexus.Agent.PluginMoves
import DshNexus.Snapshot.Capture

/-!
# Moves and their undo, over whole sessions

A session is a list of moves and undos, each with the faults it meets, and of edits of manifests by
somebody else.

1. `Ends`: how a move leaves the store, wherever it is cut (`wp_moveProfilePlugin`).
2. `Follows`: what a call may do to the records (`follows_orderCall`).
3. `made_of_finalState`: every record was made by a move of the session; `Sound`: what follows for
   the record; `record_of_unedited`: a record stays while the manifest does.
4. `order_undo_id` and `undo_profile_order` in a store whose records are sound.
5. `plugin_order_reversible`.
-/

namespace DshNexus.Agent.PluginMoves

open Document Snapshot Durable Program Plugins Config

/-! ## 1. How a move ends -/

structure Alike (s s' : OrderStore) : Prop where
  manifests : s'.manifests = s.manifests
  records : ∀ p i, s'.record p i = s.record p i

theorem Alike.refl (s : OrderStore) : Alike s s := ⟨rfl, fun _ _ => rfl⟩

structure Linked (s : OrderStore) (l : Location) (id : String) (r : OrderUndo) (s' : OrderStore) :
    Prop where
  fresh : s.record l.profile id = none
  manifests : s'.manifests = s.manifests
  records : ∀ p i, s'.record p i = if p = l.profile ∧ i = id then some r else s.record p i

/-- A record has been published and the manifest replaced; older records of the location may be
gone. -/
structure Replaced (s : OrderStore) (l : Location) (id : String) (r : OrderUndo)
    (s' : OrderStore) : Prop where
  manifests : s'.manifests = Function.update s.manifests l.directory (some r.after)
  own : s'.record l.profile id = some r
  origin : ∀ p i r', s'.record p i = some r' →
    s.record p i = some r' ∨ (p = l.profile ∧ i = id ∧ r' = r)
  kept : ∀ p i r', s.record p i = some r' →
    s'.record p i = some r' ∨ (p = l.profile ∧ r'.home = l.home ∧ r'.directory = l.directory)

/-- No more records than `order_records` lists. -/
def Limited (s : OrderStore) (profile : String) : Prop :=
  ((s.records profile).keys.filter isOrderName).length ≤ 128

variable {s : OrderStore} {l : Location} {r : OrderUndo}

theorem linked_putRecord {id : String} (hfresh : s.record l.profile id = none) :
    Linked s l id r (s.putRecord l.profile id r) :=
  ⟨hfresh, rfl, s.record_putRecord l.profile id r⟩

theorem alike_dropRecord {id : String} (hfresh : s.record l.profile id = none) :
    Alike s ((s.putRecord l.profile id r).dropRecord l.profile id) := by
  refine ⟨rfl, fun p i => ?_⟩
  rw [OrderStore.record_dropRecord, OrderStore.record_putRecord]
  split
  · next h => rw [h.1, h.2, hfresh]
  · rfl

theorem replaced_setManifest {id : String} (hfresh : s.record l.profile id = none) :
    Replaced s l id r ((s.putRecord l.profile id r).setManifest l.directory (some r.after)) where
  manifests := rfl
  own := by rw [OrderStore.record_setManifest, OrderStore.record_putRecord, if_pos ⟨rfl, rfl⟩]
  origin p i r' h := by
    rw [OrderStore.record_setManifest, OrderStore.record_putRecord] at h
    split at h
    · next hkey => exact Or.inr ⟨hkey.1, hkey.2, (Option.some.inj h).symm⟩
    · exact Or.inl h
  kept p i r' h := by
    rw [OrderStore.record_setManifest, OrderStore.record_putRecord]
    split
    · next hkey =>
      rw [hkey.1, hkey.2, hfresh] at h
      cases h
    · exact Or.inl h

theorem record_of_readOrderRecord {profile id : String} (h : readOrderRecord s profile id = .ok r) :
    s.record profile id = some r := by
  unfold readOrderRecord at h
  cases hrecord : s.record profile id with
  | none =>
    rw [hrecord] at h
    cases h
  | some r' =>
    rw [hrecord] at h
    dsimp only at h
    split at h
    · cases h
    · rw [Except.ok.inj h]

theorem Replaced.dropRecord {s s' : OrderStore} {id old : String} {r saved : OrderUndo}
    (h : Replaced s l id r s') (hsaved : s'.record l.profile old = some saved) (hne : old ≠ id)
    (hhome : saved.home = l.home) (hdirectory : saved.directory = l.directory) :
    Replaced s l id r (s'.dropRecord l.profile old) where
  manifests := h.manifests
  own := by
    rw [OrderStore.record_dropRecord, if_neg fun hkey => hne hkey.2.symm]
    exact h.own
  origin p i r' hr' := by
    rw [OrderStore.record_dropRecord] at hr'
    split at hr'
    · cases hr'
    · exact h.origin p i r' hr'
  kept p i r' hr' := by
    rcases h.kept p i r' hr' with hkept | hplace
    · rw [OrderStore.record_dropRecord]
      split
      · next hkey =>
        rw [hkey.1, hkey.2, hsaved] at hkept
        rw [← Option.some.inj hkept]
        exact Or.inr ⟨hkey.1, hhome, hdirectory⟩
      · exact Or.inl hkept
    · exact Or.inr hplace

theorem Limited.dropRecord {profile : String} (h : Limited s profile) (id : String) :
    Limited (s.dropRecord profile id) profile := by
  have hkeys : ((s.dropRecord profile id).records profile).keys =
      (s.records profile).keys.erase id := by
    unfold OrderStore.dropRecord
    dsimp only
    rw [Function.update_self, AList.keys_erase]
  unfold Limited at h ⊢
  rw [hkeys]
  exact ((List.erase_sublist.filter _).length_le).trans h

theorem limited_of_orderRecords {profile : String} {ids : List String}
    (h : orderRecords s profile = .ok ids) : Limited s profile := by
  unfold orderRecords at h
  dsimp only at h
  split at h
  · cases h
  · next hcount => exact Nat.le_of_not_lt hcount

section Steps

variable {Q : Unit → OrderStore → Prop} {E : IoError → OrderStore → Prop} {C : OrderStore → Prop}
  {s : OrderStore}

theorem wp_removeRecord (profile id : String) :
    (removeRecord profile id).wp Q E C s ↔ C s ∧ C (s.dropRecord profile id) ∧
      Q () s ∧ Q () (s.dropRecord profile id) := by
  unfold removeRecord
  rw [wp_ignoreError, wp_durable]
  constructor
  · rintro ⟨h₁, h₂, h₃, h₄, -⟩
    exact ⟨h₁, h₂, h₄, h₃⟩
  · rintro ⟨h₁, h₂, h₃, h₄⟩
    exact ⟨h₁, h₂, h₄, h₃, h₄⟩

theorem wp_publishRecord {profile id : String} (hC : C s) (hE : ∀ e, E e s)
    (hlinked : checkOrderId id = .ok () → s.record profile id = none →
    C (s.putRecord profile id r) ∧ Q () (s.putRecord profile id r) ∧ ∀ e,
    E e (s.putRecord profile id r)) : (publishRecord profile id r).wp Q E C s := by
  unfold publishRecord
  rw [wp_bind, wp_ofExcept]
  refine ⟨fun _ hid => ?_, fun e _ => hE e⟩
  simp only [wp_bind, wp_attempt, wp_toExcept, wp_ignoreError]
  refine ⟨hC, ⟨hC, ?_, hE _⟩, hE _⟩
  have hfailed : ∀ e : IoError, C s ∧
      (Program.ofExcept (Except.error e) : Program OrderStore IoError Unit).wp Q E C s ∧
      (Program.ofExcept (Except.error e) : Program OrderStore IoError Unit).wp Q E C s :=
    fun e => ⟨hC, hE e, hE e⟩
  unfold linkRecord
  rw [wp_bind, wp_read]
  split
  · exact hfailed _
  · next hfresh =>
    rw [Bool.not_eq_true, Option.isSome_eq_false_iff, Option.isNone_iff_eq_none] at hfresh
    obtain ⟨hC', hQ', hE'⟩ := hlinked hid hfresh
    rw [wp_durable]
    exact ⟨hC, hC', ⟨hC', hQ', hQ'⟩, hfailed _, hC', hE' _, hE' _⟩

theorem wp_replaceManifest {id : String} {before after : Bytes} (hfile : l.manifest s = some before)
    (hne : before ≠ after) (hC : C s) (hE : ∀ e, E e s)
    (hdropped : C (s.dropRecord l.profile id) ∧ ∀ e, E e (s.dropRecord l.profile id))
    (hset : C (s.setManifest l.directory (some after)) ∧ Q ()
    (s.setManifest l.directory (some after)) ∧ ∀ e, E e (s.setManifest l.directory (some after))) :
    (replaceManifest l id before after).wp Q E C s := by
  unfold replaceManifest
  rw [wp_bind]
  refine wp_readFile ?_ hE
  rw [hfile, if_neg (by simp), wp_tryCatch, wp_durable]
  obtain ⟨hCset, hQset, hEset⟩ := hset
  refine ⟨hC, hCset, hQset, ?_, ?_⟩
  · rw [wp_bind, wp_read]
    split
    · rw [wp_bind, wp_removeRecord]
      exact ⟨hC, hdropped.1, hE _, hdropped.2 _⟩
    · exact hE _
  · -- the manifest has been replaced, so the record stays
    rw [wp_bind, wp_read]
    have hkept : ¬ readRegularFileBounded (l.manifest (s.setManifest l.directory (some after)))
        MAX_PROFILE_MANIFEST_BYTES = .ok (some before) := by
      intro h
      have heq := eq_of_readRegularFileBounded h
      unfold Location.manifest at heq
      rw [OrderStore.manifests_setManifest, Function.update_self] at heq
      exact hne (Option.some.inj heq)
    rw [if_neg hkept]
    exact hEset _

theorem wp_forgetRecords {s' : OrderStore} {id : String} (h : Replaced s l id r s') :
    (forgetRecords l id).wp (fun _ t => Replaced s l id r t ∧ Limited t l.profile)
    (fun _ t => Replaced s l id r t) (fun t => Replaced s l id r t) s' := by
  unfold forgetRecords
  rw [wp_bind, wp_inspect]
  refine ⟨fun olds holds => ?_, fun e _ => h⟩
  refine wp_forM (I := fun _ t => Replaced s l id r t ∧ Limited t l.profile) ?_ olds s'
    ⟨h, limited_of_orderRecords holds⟩
  rintro old olds t ⟨ht, hlimited⟩
  unfold forgetRecord
  rw [wp_bind, wp_read]
  cases hread : readOrderRecord t l.profile old with
  | error e => exact ⟨ht, hlimited⟩
  | ok saved =>
    dsimp only
    split
    · next hplace =>
      have hdropped := ht.dropRecord (record_of_readOrderRecord hread) hplace.1 hplace.2.1
        hplace.2.2
      rw [wp_removeRecord]
      exact ⟨ht, hdropped, ⟨ht, hlimited⟩, hdropped, hlimited.dropRecord old⟩
    · exact ⟨ht, hlimited⟩

end Steps

def moveRecord (l : Location) (before after : Bytes) : OrderUndo :=
  ⟨1, l.profile, l.home, l.directory, before, after⟩

/-- How a move leaves the store, however it ends. -/
def Ends (env : OrderEnv) (l : Location) (package : String) (target : Option String) (now : Nat)
    (s s' : OrderStore) : Prop :=
  Alike s s' ∨ ∃ before after, planMove env l package target s = .ok (before, after) ∧
    before ≠ after ∧ checkOrderId (orderId now) = .ok () ∧
      (Linked s l (orderId now) (moveRecord l before after) s' ∨
        Replaced s l (orderId now) (moveRecord l before after) s')

/-- How a move leaves the store that succeeds. -/
def Succeeds (env : OrderEnv) (l : Location) (package : String) (target : Option String)
    (now : Nat) (s s' : OrderStore) : Prop :=
  ∃ before after, planMove env l package target s = .ok (before, after) ∧
    ((before = after ∧ s' = s) ∨ (before ≠ after ∧ checkOrderId (orderId now) = .ok () ∧
      Replaced s l (orderId now) (moveRecord l before after) s' ∧ Limited s' l.profile))

/-- **A move, wherever it is cut.** -/
theorem wp_moveProfilePlugin (env : OrderEnv) (l : Location) (package : String)
    (target : Option String) (now : Nat) (s : OrderStore) :
    (moveProfilePlugin env l package target now).wp
      (fun _ s' => Succeeds env l package target now s s')
      (fun _ s' => Ends env l package target now s s')
      (fun s' => Ends env l package target now s s') s := by
  have hsame : Ends env l package target now s s := Or.inl (Alike.refl s)
  unfold moveProfilePlugin
  rw [wp_bind, wp_attempt]
  refine ⟨hsame, ?_, hsame⟩
  rw [wp_bind, wp_inspect]
  refine ⟨?_, fun _ _ => hsame⟩
  rintro ⟨before, after⟩ hplan
  dsimp only
  split
  · next heq =>
    rw [wp_inspect]
    exact ⟨fun _ _ => ⟨before, after, hplan, Or.inl ⟨heq, rfl⟩⟩, fun _ _ => hsame⟩
  · next hne =>
    rw [wp_bind]
    refine wp_publishRecord hsame (fun _ => hsame) fun hid hfresh => ?_
    have hput : Ends env l package target now s
        (s.putRecord l.profile (orderId now) (moveRecord l before after)) :=
      Or.inr ⟨before, after, hplan, hne, hid, Or.inl (linked_putRecord hfresh)⟩
    have hreplaced : ∀ {s'}, Replaced s l (orderId now) (moveRecord l before after) s' →
        Ends env l package target now s s' :=
      fun h => Or.inr ⟨before, after, hplan, hne, hid, Or.inr h⟩
    refine ⟨hput, ?_, fun _ => hput⟩
    rw [wp_bind]
    have hset := replaced_setManifest (r := moveRecord l before after) hfresh
    refine wp_replaceManifest (of_planMove hplan).1 hne hput (fun _ => hput) ?_ ?_
    · exact ⟨Or.inl (alike_dropRecord hfresh), fun _ => Or.inl (alike_dropRecord hfresh)⟩
    · refine ⟨hreplaced hset, ?_, fun _ => hreplaced hset⟩
      rw [wp_bind]
      refine wp_mono ?_ (fun _ _ h => hreplaced h) (fun _ h => hreplaced h)
        (wp_forgetRecords hset)
      rintro - t ⟨ht, hlimited⟩
      rw [wp_bind, wp_inspect]
      refine ⟨fun _ _ => ?_, fun _ _ => hreplaced ht⟩
      exact ⟨before, after, hplan, Or.inr ⟨hne, hid, ht, hlimited⟩⟩

/-! ## 2. What a call does to the records -/

def Made (env : OrderEnv) (s : OrderStore) : OrderCall → String → String → OrderUndo → Prop
  | .move l package target now, profile, id, r => profile = l.profile ∧ id = orderId now ∧
      checkOrderId id = .ok () ∧ ∃ before after,
        planMove env l package target s = .ok (before, after) ∧ before ≠ after ∧
          r = moveRecord l before after
  | .undo _ _, _, _, _ => False
  | .edit _ _, _, _, _ => False

/-- **What a call does to the records**: they were there or are made by it, and one that fits its
manifest before and after the call stays. -/
structure Follows (env : OrderEnv) (call : OrderCall) (s s' : OrderStore) : Prop where
  origin : ∀ p i r, s'.record p i = some r → s.record p i = some r ∨ Made env s call p i r
  kept : ∀ p i r, s.record p i = some r → r.before ≠ r.after →
    s.manifests r.directory = some r.after → s'.manifests r.directory = some r.after →
      s'.record p i = some r

variable {env : OrderEnv}

theorem follows_of_alike {call : OrderCall} {s s' : OrderStore}
    (hrecords : ∀ p i, s'.record p i = s.record p i) : Follows env call s s' where
  origin p i _ h := Or.inl (hrecords p i ▸ h)
  kept p i _ h _ _ _ := (hrecords p i).trans h

theorem follows_of_ends {package : String} {target : Option String} {now : Nat} {s s' : OrderStore}
    (h : Ends env l package target now s s') : Follows env (.move l package target now) s s' := by
  rcases h with halike | ⟨before, after, hplan, hne, hid, hlinked | hreplaced⟩
  · exact follows_of_alike halike.records
  · constructor
    · intro p i r hr
      rw [hlinked.records] at hr
      split at hr
      · next hkey =>
        obtain ⟨rfl, rfl⟩ := hkey
        exact Or.inr ⟨rfl, rfl, hid, before, after, hplan, hne, (Option.some.inj hr).symm⟩
      · exact Or.inl hr
    · intro p i r hr _ _ _
      rw [hlinked.records]
      split
      · next hkey =>
        rw [hkey.1, hkey.2, hlinked.fresh] at hr
        cases hr
      · exact hr
  · constructor
    · intro p i r hr
      rcases hreplaced.origin p i r hr with hold | ⟨rfl, rfl, rfl⟩
      · exact Or.inl hold
      · exact Or.inr ⟨rfl, rfl, hid, before, after, hplan, hne, rfl⟩
    · intro p i r hr _ hfits hfits'
      rcases hreplaced.kept p i r hr with hkept | ⟨-, -, hdirectory⟩
      · exact hkept
      · -- the manifest has been replaced, so the record does not fit it before and after
        rw [hdirectory, (of_planMove hplan).1] at hfits
        rw [hdirectory, hreplaced.manifests, Function.update_self] at hfits'
        exact absurd ((Option.some.inj hfits).trans (Option.some.inj hfits').symm) hne

theorem of_readUndo {id : String} {saved : OrderUndo} (h : readUndo env l id s = .ok saved) :
    s.record l.profile id = some saved ∧ saved.profile = l.profile ∧ saved.home = l.home ∧
    saved.directory = l.directory ∧ s.manifests l.directory = some saved.after := by
  obtain ⟨inventory, -, h⟩ := bind_eq_ok h
  rw [guard_eq_ok] at h
  obtain ⟨⟨⟩, -, h⟩ := bind_eq_ok h.2
  obtain ⟨saved', hsaved, h⟩ := bind_eq_ok h
  rw [guard_eq_ok, not_or, not_or, not_not, not_not, not_not] at h
  obtain ⟨⟨hprofile, hhome, hdirectory⟩, h⟩ := h
  obtain ⟨current, hcurrent, h⟩ := bind_eq_ok h
  rw [guard_eq_ok, not_not] at h
  obtain ⟨hfits, h⟩ := h
  obtain ⟨-, -, h⟩ := bind_eq_ok h
  obtain rfl := Except.ok.inj h
  refine ⟨record_of_readOrderRecord hsaved, hprofile, hhome, hdirectory, ?_⟩
  rw [← hfits]
  exact (currentManifest_eq_ok.mp hcurrent).1

/-- How an undo leaves the store: as it was, or with the manifest put back and the record there or
gone. -/
def Undoes (env : OrderEnv) (l : Location) (id : String) (s s' : OrderStore) : Prop :=
  ∃ saved, readUndo env l id s = .ok saved ∧
    (s' = s.setManifest l.directory (some saved.before) ∨
      s' = (s.setManifest l.directory (some saved.before)).dropRecord l.profile id)

theorem wp_undoProfileOrder (env : OrderEnv) (l : Location) (id : String) (s : OrderStore) :
    (undoProfileOrder env l id).wp (fun _ s' => Undoes env l id s s')
      (fun _ s' => s' = s ∨ Undoes env l id s s') (fun s' => s' = s ∨ Undoes env l id s s') s := by
  unfold undoProfileOrder
  rw [wp_bind, wp_attempt]
  refine ⟨Or.inl rfl, ?_, Or.inl rfl⟩
  rw [wp_bind, wp_inspect]
  refine ⟨fun saved hsaved => ?_, fun _ _ => Or.inl rfl⟩
  have hset : Undoes env l id s (s.setManifest l.directory (some saved.before)) :=
    ⟨saved, hsaved, Or.inl rfl⟩
  have hdropped : Undoes env l id s
      ((s.setManifest l.directory (some saved.before)).dropRecord l.profile id) :=
    ⟨saved, hsaved, Or.inr rfl⟩
  rw [wp_bind, wp_durable]
  refine ⟨Or.inl rfl, Or.inr hset, ?_, Or.inl rfl, Or.inr hset⟩
  rw [wp_bind, wp_removeRecord]
  refine ⟨Or.inr hset, Or.inr hdropped, ?_, ?_⟩
  · rw [wp_inspect]
    exact ⟨fun _ _ => hset, fun _ _ => Or.inr hset⟩
  · rw [wp_inspect]
    exact ⟨fun _ _ => hdropped, fun _ _ => Or.inr hdropped⟩

theorem Undoes.manifests {id : String} {s s' : OrderStore} (h : Undoes env l id s s') : ∃ saved,
    readUndo env l id s = .ok saved ∧ s'.manifests =
    Function.update s.manifests l.directory (some saved.before) := by
  obtain ⟨saved, hsaved, rfl | rfl⟩ := h
  · exact ⟨saved, hsaved, rfl⟩
  · exact ⟨saved, hsaved, rfl⟩

theorem follows_of_undoes {id : String} {s s' : OrderStore} (h : Undoes env l id s s') :
    Follows env (.undo l id) s s' := by
  obtain ⟨saved, hsaved, hend⟩ := h
  obtain ⟨hrecord, -, -, hdirectory, hfile⟩ := of_readUndo hsaved
  rcases hend with rfl | rfl
  · exact follows_of_alike fun _ _ => rfl
  · constructor
    · intro p i r hr
      rw [OrderStore.record_dropRecord] at hr
      split at hr
      · cases hr
      · exact Or.inl hr
    · intro p i r hr hchanged hfits hfits'
      rw [OrderStore.record_dropRecord]
      split
      · next hkey =>
        -- the record that is undone does not fit the manifest that it has put back
        rw [hkey.1, hkey.2, hrecord] at hr
        obtain rfl := Option.some.inj hr
        rw [OrderStore.manifests_dropRecord, OrderStore.manifests_setManifest, hdirectory,
          Function.update_self] at hfits'
        exact absurd (Option.some.inj hfits') hchanged
      · exact hr

/-- **What every call does to the records**, wherever it is cut. -/
theorem follows_orderCall (env : OrderEnv) (call : OrderCall) (s : OrderStore) :
    (orderCall env call).wp (fun _ s' => Follows env call s s')
      (fun _ s' => Follows env call s s') (fun s' => Follows env call s s') s := by
  cases call with
  | move l package target now =>
    rw [orderCall, wp_map]
    refine wp_mono ?_ (fun _ _ h => follows_of_ends h) (fun _ h => follows_of_ends h)
      (wp_moveProfilePlugin env l package target now s)
    rintro - s' ⟨before, after, hplan, ⟨-, rfl⟩ | ⟨hne, hid, hreplaced, -⟩⟩
    · exact follows_of_alike fun _ _ => rfl
    · exact follows_of_ends (Or.inr ⟨before, after, hplan, hne, hid, Or.inr hreplaced⟩)
  | undo l id =>
    have hends : ∀ {s'}, s' = s ∨ Undoes env l id s s' → Follows env (.undo l id) s s' := by
      rintro s' (rfl | h)
      · exact follows_of_alike fun _ _ => rfl
      · exact follows_of_undoes h
    rw [orderCall, wp_map]
    exact wp_mono (fun _ _ h => follows_of_undoes h) (fun _ _ h => hends h)
      (fun _ h => hends h) (wp_undoProfileOrder env l id s)
  | edit directory file =>
    have hsame : ∀ s' : OrderStore, (∀ p i, s'.record p i = s.record p i) →
        Follows env (.edit directory file) s s' := fun _ h => follows_of_alike h
    rw [orderCall, wp_bind, wp_durable]
    exact ⟨hsame _ fun _ _ => rfl, hsame _ fun _ _ => rfl, hsame _ fun _ _ => rfl,
      hsame _ fun _ _ => rfl, hsame _ fun _ _ => rfl⟩

/-! ## 3. Records of a session -/

section Session

variable {env : OrderEnv}

/-- **Every record was made by a move of the session.** -/
theorem made_of_finalState {s₀ : OrderStore} (hempty : ∀ p, s₀.records p = ∅)
    (cs : List (OrderCall × List Fault)) {profile id : String}
    (h : (Session.finalState (orderCall env) cs s₀).record profile id = some r) :
    ∃ earlier call fs later, cs = earlier ++ (call, fs) :: later ∧
    Made env (Session.finalState (orderCall env) earlier s₀) call profile id r := by
  have hstart : ¬ s₀.record profile id = some r := by
    rw [OrderStore.record, hempty]
    simp
  obtain ⟨earlier, call, fs, later, rfl, hbefore, hafter⟩ :=
    Session.exists_call_of_finalState (P := fun s : OrderStore => s.record profile id = some r) h hstart
  refine ⟨earlier, call, fs, later, rfl, ?_⟩
  have hfollows : Follows env call (Session.finalState (orderCall env) earlier s₀)
      (Session.after (orderCall env call) fs (Session.finalState (orderCall env) earlier s₀)) :=
    Session.after_of_wp fs (follows_orderCall env call _)
  exact (hfollows.origin profile id r hafter).resolve_left hbefore

/-- What holds of a record: it can be read, it is of a profile that may be changed, and both of its
texts are manifests. -/
structure Sound (env : OrderEnv) (profile id : String) (r : OrderUndo) : Prop where
  id : checkOrderId id = .ok ()
  schema : r.schema = 1
  owner : r.profile = profile
  changed : r.before ≠ r.after
  source : env.source ⟨profile, r.home, r.directory⟩ = .ok none
  before : ∃ value names, Loads env.codec r.before value names
  after : ∃ value names, Loads env.codec r.after value names

theorem sound_of_made {call : OrderCall} {profile id : String} (h : Made env s call profile id r) :
    Sound env profile id r := by
  cases call with
  | move l package target now =>
    obtain ⟨rfl, -, hid, before, after, hplan, hne, rfl⟩ := h
    obtain ⟨-, hsource, -, hbefore, hafter⟩ := of_planMove hplan
    exact ⟨hid, rfl, rfl, hne, hsource, hbefore, hafter⟩
  | undo l id => exact h.elim
  | edit directory file => exact h.elim

def SoundStore (env : OrderEnv) (s : OrderStore) : Prop :=
  ∀ profile id r, s.record profile id = some r → Sound env profile id r

theorem soundStore_step {call : OrderCall} {s s' : OrderStore} (h : SoundStore env s)
    (hfollows : Follows env call s s') : SoundStore env s' := by
  intro profile id r hr
  rcases hfollows.origin profile id r hr with hold | hmade
  · exact h profile id r hold
  · exact sound_of_made hmade

theorem soundStore_finalState (h : SoundStore env s) (cs : List (OrderCall × List Fault)) :
    SoundStore env (Session.finalState (orderCall env) cs s) := by
  refine Session.finalState_preserves (I := SoundStore env) ?_ cs s h
  intro call t ht
  exact wp_mono (fun _ _ hf => soundStore_step ht hf) (fun _ _ hf => soundStore_step ht hf)
    (fun _ hf => soundStore_step ht hf) (follows_orderCall env call t)

/-- No call of the session changes the manifest of the directory. -/
def Unedited (env : OrderEnv) (directory : String) :
    List (OrderCall × List Fault) → OrderStore → Prop
  | [], _ => True
  | (call, fs) :: cs, s =>
      (Session.after (orderCall env call) fs s).manifests directory = s.manifests directory ∧
        Unedited env directory cs (Session.after (orderCall env call) fs s)

/-- **A record stays while the manifest does.** -/
theorem record_of_unedited (cs : List (OrderCall × List Fault)) {profile id : String}
    (hchanged : r.before ≠ r.after) (hrecord : s.record profile id = some r)
    (hfits : s.manifests r.directory = some r.after) (h : Unedited env r.directory cs s) :
    (Session.finalState (orderCall env) cs s).record profile id = some r ∧
    (Session.finalState (orderCall env) cs s).manifests r.directory = some r.after := by
  induction cs generalizing s with
  | nil => exact ⟨hrecord, hfits⟩
  | cons c cs ih =>
    obtain ⟨call, fs⟩ := c
    have hfollows : Follows env call s (Session.after (orderCall env call) fs s) :=
      Session.after_of_wp fs (follows_orderCall env call s)
    have hfits' := h.1.trans hfits
    exact ih (hfollows.kept profile id r hrecord hchanged hfits hfits') hfits' h.2

end Session

/-! ## 4. The undo that is offered -/

theorem mem_orderRecords {profile id : String} {ids : List String}
    (h : orderRecords s profile = .ok ids) : id ∈ ids ↔ (s.record profile id).isSome ∧
    isOrderName id = true := by
  unfold orderRecords at h
  dsimp only at h
  split at h
  · cases h
  · rw [← Except.ok.inj h, List.mem_insertionSort, List.mem_filter, AList.mem_keys.symm,
      OrderStore.record, AList.lookup_isSome]

theorem orderRecords_of_limited {profile : String} (h : Limited s profile) : ∃ ids,
    orderRecords s profile = .ok ids := by
  unfold orderRecords
  dsimp only
  rw [if_neg (Nat.not_lt.mpr h)]
  exact ⟨_, rfl⟩

theorem Sound.readable {profile id : String} (h : Sound env profile id r)
    (hrecord : s.record profile id = some r) : readOrderRecord s profile id = .ok r := by
  obtain ⟨value, names, hbefore⟩ := h.before
  obtain ⟨value', names', hafter⟩ := h.after
  have hb := hbefore.bounded
  have ha := hafter.bounded
  unfold readOrderRecord
  rw [hrecord]
  dsimp only
  rw [if_neg]
  rintro (hschema | hlong | hlong)
  · exact hschema h.schema
  · omega
  · omega

/-- The record is of the location, and its undo fits the manifest. -/
structure Fits (s : OrderStore) (l : Location) (r : OrderUndo) : Prop where
  profile : r.profile = l.profile
  home : r.home = l.home
  directory : r.directory = l.directory
  manifest : l.manifest s = some r.after

theorem of_findUndo {ids : List String} {id : String}
    (h : findUndo s l (l.manifest s) ids = .ok (some id)) : ∃ r, s.record l.profile id = some r ∧
    Fits s l r := by
  induction ids with
  | nil => cases h
  | cons id' ids ih =>
    rw [findUndo] at h
    obtain ⟨saved, hsaved, h⟩ := bind_eq_ok h
    split at h
    · next hplace =>
      obtain rfl := Option.some.inj (Except.ok.inj h)
      obtain ⟨hprofile, hhome, hdirectory, hmanifest⟩ := hplace
      exact ⟨saved, record_of_readOrderRecord hsaved, hprofile, hhome, hdirectory, hmanifest⟩
    · exact ih h

theorem findUndo_isSome (hs : SoundStore env s) {ids : List String}
    (hids : ∀ id ∈ ids, (s.record l.profile id).isSome) {id : String} (hid : id ∈ ids)
    (hrecord : s.record l.profile id = some r) (hfits : Fits s l r) : ∃ found,
    findUndo s l (l.manifest s) ids = .ok (some found) := by
  induction ids with
  | nil => exact absurd hid List.not_mem_nil
  | cons id' ids ih =>
    obtain ⟨saved, hsaved⟩ := Option.isSome_iff_exists.mp (hids id' List.mem_cons_self)
    rw [findUndo, (hs l.profile id' saved hsaved).readable hsaved]
    by_cases hplace : saved.profile = l.profile ∧ saved.home = l.home ∧
        saved.directory = l.directory ∧ l.manifest s = some saved.after
    · exact ⟨id', if_pos hplace⟩
    · have hlater : id ∈ ids := by
        rcases List.mem_cons.mp hid with rfl | hid
        · rw [hsaved] at hrecord
          obtain rfl := Option.some.inj hrecord
          exact absurd ⟨hfits.profile, hfits.home, hfits.directory, hfits.manifest⟩ hplace
        · exact hid
      obtain ⟨found, hfound⟩ := ih (fun i hi => hids i (List.mem_cons_of_mem _ hi)) hlater
      exact ⟨found, (if_neg hplace).trans hfound⟩

/-- **A record that fits is offered**, this one or another. -/
theorem orderUndoId_isSome (hs : SoundStore env s) (hlimited : Limited s l.profile) {id : String}
    (hrecord : s.record l.profile id = some r) (hfits : Fits s l r) : ∃ found, orderUndoId s l =
    .ok (some found) := by
  have hsound := hs l.profile id r hrecord
  obtain ⟨ids, hids⟩ := orderRecords_of_limited hlimited
  have hread : readRegularFileBounded (l.manifest s) MAX_PROFILE_MANIFEST_BYTES =
      .ok (l.manifest s) := by
    obtain ⟨value, names, hafter⟩ := hsound.after
    rw [hfits.manifest, readRegularFileBounded, if_neg (Nat.not_lt.mpr hafter.bounded)]
  have hname : isOrderName id = true := by
    have hid := hsound.id
    unfold checkOrderId at hid
    split at hid
    · next hvalid => exact hvalid.1
    · cases hid
  unfold orderUndoId
  rw [hread, hids]
  refine findUndo_isSome hs (fun i hi => ((mem_orderRecords hids).mp hi).1) ?_ hrecord hfits
  exact (mem_orderRecords hids).mpr ⟨by rw [hrecord]; rfl, hname⟩

theorem of_orderUndoId {id : String} (h : orderUndoId s l = .ok (some id)) : ∃ r,
    s.record l.profile id = some r ∧ Fits s l r := by
  obtain ⟨current, hcurrent, h⟩ := bind_eq_ok h
  obtain ⟨ids, -, h⟩ := bind_eq_ok h
  rw [eq_of_readRegularFileBounded hcurrent] at h
  exact of_findUndo h

/-- **An undo that is offered succeeds.** -/
theorem returns_undoProfileOrder (hs : SoundStore env s) {id : String}
    (hrecord : s.record l.profile id = some r) (hfits : Fits s l r) :
    (undoProfileOrder env l id).returns (fun _ s' => s'.manifests l.directory = some r.before)
    s := by
  have hsound := hs l.profile id r hrecord
  obtain ⟨value, names, hbefore⟩ := hsound.before
  obtain ⟨value', names', hafter⟩ := hsound.after
  have hsource : env.source l = .ok none := by
    have hsource := hsound.source
    rwa [hfits.home, hfits.directory] at hsource
  have hundo : readUndo env l id s = .ok r := by
    obtain ⟨inventory, hinventory, -, horigin⟩ :=
      nativeProfileOf_eq_ok.mpr ⟨r.after, value', rfl, hafter, hsource⟩
    unfold readUndo nativeProfile
    rw [hfits.manifest]
    refine bind_eq_ok_iff.mpr ⟨inventory, hinventory, guard_eq_ok.mpr ⟨?_, ?_⟩⟩
    · rw [horigin]
      exact Bool.false_ne_true
    refine bind_eq_ok_iff.mpr ⟨(), hsound.id, bind_eq_ok_iff.mpr ⟨r, hsound.readable hrecord, ?_⟩⟩
    refine guard_eq_ok.mpr ⟨?_, bind_eq_ok_iff.mpr ⟨r.after, ?_, guard_eq_ok.mpr ⟨?_, ?_⟩⟩⟩
    · rintro (h | h | h)
      · exact h hfits.profile
      · exact h hfits.home
      · exact h hfits.directory
    · exact currentManifest_eq_ok.mpr ⟨rfl, hafter.bounded⟩
    · exact not_not.mpr rfl
    · exact bind_eq_ok_iff.mpr ⟨value, mapError_eq_ok.mpr hbefore.decode, rfl⟩
  unfold undoProfileOrder
  simp only [returns_bind, returns_attempt, returns_inspect,
    returns_durable, removeRecord]
  refine ⟨r, hundo, ?_⟩
  rw [returns_ignoreError]
  obtain ⟨inventory, hinventory, -⟩ :=
    nativeProfileOf_eq_ok.mpr ⟨r.before, value, rfl, hbefore, hsource⟩
  refine ⟨inventory, ?_, ?_⟩
  · unfold nativeProfile Location.manifest
    rw [OrderStore.manifests_dropRecord, OrderStore.manifests_setManifest, Function.update_self]
    exact hinventory
  · rw [OrderStore.manifests_dropRecord, OrderStore.manifests_setManifest, Function.update_self]

/-! ## 5. Moves are reversible -/

section Reversible

variable {env : OrderEnv}

theorem offered_of_succeeds {package : String} {target : Option String} {now : Nat}
    {s s' : OrderStore} (hs : SoundStore env s) (h : Succeeds env l package target now s s') :
    ∃ before after, planMove env l package target s = .ok (before, after) ∧ s'.manifests =
    Function.update s.manifests l.directory (some after) ∧
    (before ≠ after → Limited s' l.profile ∧ ∀ ds, Unedited env l.directory ds s' →
    Limited (Session.finalState (orderCall env) ds s') l.profile → ∃ id,
    orderUndoId (Session.finalState (orderCall env) ds s') l = .ok (some id)) := by
  obtain ⟨before, after, hplan, ⟨rfl, rfl⟩ | ⟨hne, hid, hreplaced, hlimited⟩⟩ := h
  · refine ⟨before, before, hplan, ?_, fun hne => absurd rfl hne⟩
    rw [← (of_planMove hplan).1, Function.update_eq_self]
  · refine ⟨before, after, hplan, hreplaced.manifests, fun _ => ⟨hlimited, fun ds hds hmany => ?_⟩⟩
    have hs' : SoundStore env s' := soundStore_step hs
      (follows_of_ends (Or.inr ⟨before, after, hplan, hne, hid, Or.inr hreplaced⟩))
    have hfile : s'.manifests l.directory = some after := by
      rw [hreplaced.manifests, Function.update_self]
      rfl
    obtain ⟨hrecord, hfits⟩ := record_of_unedited ds (r := moveRecord l before after) hne
      hreplaced.own hfile hds
    exact orderUndoId_isSome (soundStore_finalState hs' ds) hmany hrecord ⟨rfl, rfl, rfl, hfits⟩

theorem earlier_of_undoes {s₀ : OrderStore} (hempty : ∀ p, s₀.records p = ∅)
    (cs : List (OrderCall × List Fault)) {id : String} {s' : OrderStore}
    (h : Undoes env l id (Session.finalState (orderCall env) cs s₀) s') :
    ∃ earlier l' package target now fs later before after, cs =
    earlier ++ (.move l' package target now, fs) :: later ∧ l'.directory = l.directory ∧ id =
    orderId now ∧ planMove env l' package target (Session.finalState (orderCall env) earlier s₀) =
    .ok (before, after) ∧ (Session.finalState (orderCall env) earlier s₀).manifests l.directory =
    some before ∧ (Session.finalState (orderCall env) cs s₀).manifests l.directory = some after ∧
    s'.manifests = Function.update (Session.finalState (orderCall env) cs s₀).manifests l.directory
    (some before) := by
  obtain ⟨saved, hsaved, hmanifests⟩ := h.manifests
  obtain ⟨hrecord, -, -, hdirectory, hfile⟩ := of_readUndo hsaved
  obtain ⟨earlier, call, fs, later, rfl, hmade⟩ := made_of_finalState hempty cs hrecord
  cases call with
  | move l' package target now =>
    obtain ⟨-, hid, -, before, after, hplan, -, rfl⟩ := hmade
    have hsame : l'.directory = l.directory := hdirectory
    exact ⟨earlier, l', package, target, now, fs, later, before, after, rfl, hsame, hid, hplan,
      hsame ▸ (of_planMove hplan).1, hfile, hmanifests⟩
  | undo l' id' => exact hmade.elim
  | edit directory file => exact hmade.elim

/-- **Reordering plugins is reversible.**  From a store without records, after every session:

1. a move that succeeds makes of the manifest what `Moves` says, and if it has changed the bytes,
   an undo is offered, and stays offered as long as the manifest stays and the records can be
   listed;
2. an undo changes nothing, or puts back the bytes that an earlier move found, and only where the
   manifest holds the bytes that this move was to write;
3. an undo that is offered succeeds. -/
theorem plugin_order_reversible (env : OrderEnv) (s₀ : OrderStore)
    (hempty : ∀ p, s₀.records p = ∅) (cs : List (OrderCall × List Fault)) (s : OrderStore)
    (hs : s = Session.finalState (orderCall env) cs s₀) (l : Location) :
    (∀ package target now fs inventory s',
      (moveProfilePlugin env l package target now).run fs s = (.ok inventory, s') →
      ∃ before after, s.manifests l.directory = some before ∧
        planMove env l package target s = .ok (before, after) ∧
        Moves env.codec package target before after ∧
        s'.manifests = Function.update s.manifests l.directory (some after) ∧
        (before ≠ after → Limited s' l.profile ∧ ∀ ds, Unedited env l.directory ds s' →
          Limited (Session.finalState (orderCall env) ds s') l.profile →
            ∃ id, orderUndoId (Session.finalState (orderCall env) ds s') l = .ok (some id))) ∧
    (∀ id fs, let s' := Session.after (undoProfileOrder env l id) fs s
      (s'.manifests = s.manifests ∧ ∀ inventory,
        ((undoProfileOrder env l id).run fs s).1 ≠ .ok inventory) ∨
      ∃ earlier l' package target now fs' later before after,
        cs = earlier ++ (.move l' package target now, fs') :: later ∧
        l'.directory = l.directory ∧ id = orderId now ∧
        planMove env l' package target (Session.finalState (orderCall env) earlier s₀) =
          .ok (before, after) ∧
        (Session.finalState (orderCall env) earlier s₀).manifests l.directory = some before ∧
        s.manifests l.directory = some after ∧
        s'.manifests = Function.update s.manifests l.directory (some before)) ∧
    (∀ id, orderUndoId s l = .ok (some id) →
      (undoProfileOrder env l id).returns (fun _ s' => s'.manifests ≠ s.manifests) s) := by
  have hsound : SoundStore env s := by
    rw [hs]
    refine soundStore_finalState ?_ cs
    intro profile id r hr
    rw [OrderStore.record, hempty] at hr
    cases hr
  refine ⟨?_, ?_, ?_⟩
  · intro package target now fs inventory s' hrun
    have hend := (wp_iff_run _ _ _ _ s).mp
      (wp_moveProfilePlugin env l package target now s) fs
    rw [hrun] at hend
    obtain ⟨before, after, hplan, hmanifests, hoffered⟩ := offered_of_succeeds hsound hend
    obtain ⟨hfile, -, hmoves, -⟩ := of_planMove hplan
    exact ⟨before, after, hfile, hplan, hmoves, hmanifests, hoffered⟩
  · intro id fs
    dsimp only
    have hend := (wp_iff_run _ _ _ _ s).mp (wp_undoProfileOrder env l id s) fs
    unfold Session.after
    subst hs
    rcases hrun : (undoProfileOrder env l id).run fs
      (Session.finalState (orderCall env) cs s₀) with ⟨inventory | e | _, s'⟩
    · rw [hrun] at hend
      exact Or.inr (earlier_of_undoes hempty cs hend)
    · rw [hrun] at hend
      rcases hend with rfl | hend
      · exact Or.inl ⟨rfl, fun _ h => by cases h⟩
      · exact Or.inr (earlier_of_undoes hempty cs hend)
    · rw [hrun] at hend
      rcases hend with rfl | hend
      · exact Or.inl ⟨rfl, fun _ h => by cases h⟩
      · exact Or.inr (earlier_of_undoes hempty cs hend)
  · intro id hid
    obtain ⟨r, hrecord, hfits⟩ := of_orderUndoId hid
    refine returns_mono ?_ (returns_undoProfileOrder hsound hrecord hfits)
    intro _ s' hback hsame
    rw [hsame] at hback
    have hmanifest : s.manifests l.directory = some r.after := hfits.manifest
    rw [hmanifest] at hback
    exact (hsound _ _ _ hrecord).changed (Option.some.inj hback).symm

end Reversible

/-! ### A profile with two bundles -/

/-- The manifest of a profile with a list of bundles. -/
def sampleManifest (names : List String) : JsonValue :=
  .mapping [("dsh", .mapping [("profile", .mapping [("bundles", .sequence (names.map text))])])]

def sampleText (first second : String) : Bytes :=
  ascii ("\x7b\n  \"dsh\": \x7b\n    \"profile\": \x7b\n      \"bundles\": [\n        \"" ++ first ++
    "\",\n        \"" ++ second ++ "\"\n      ]\n    \x7d\n  \x7d\n\x7d")

theorem mapM_asStr_text (names : List String) : (names.map text).mapM asStr = some names := by
  induction names with
  | nil => rfl
  | cons name names ih =>
    rw [List.map_cons, List.mapM_cons, ih]
    rfl

/-- What the JSON parser and encoder do on the two texts. -/
def sampleCodec : ManifestCodec where
  decode bytes :=
    if bytes = sampleText "a" "b" then .ok (sampleManifest ["a", "b"])
    else if bytes = sampleText "b" "a" then .ok (sampleManifest ["b", "a"])
    else .error "expected value at line 1 column 1"
  encode value :=
    match ((profileMember value "bundles").bind asArray).bind fun items => items.mapM asStr with
    | some ["a", "b"] => .ok (sampleText "a" "b")
    | some ["b", "a"] => .ok (sampleText "b" "a")
    | _ => .error "not one of the texts"
  reads := by
    intro bytes value names after hdecode hencode
    have hset : setBundles names value = sampleManifest names := by
      split at hdecode
      · rw [← Except.ok.inj hdecode]
        rfl
      · split at hdecode
        · rw [← Except.ok.inj hdecode]
          rfl
        · cases hdecode
    have hnames : ((profileMember (sampleManifest names) "bundles").bind asArray).bind
        (fun items => items.mapM asStr) = some names := by
      exact mapM_asStr_text names
    rw [hset, hnames] at hencode
    rw [hset]
    split at hencode
    · next heq =>
      rw [← Except.ok.inj hencode, ← Option.some.inj heq]
      rfl
    · next heq =>
      rw [← Except.ok.inj hencode, ← Option.some.inj heq]
      rfl
    · cases hencode

def sampleEnv : OrderEnv := ⟨sampleCodec, fun _ => .ok none⟩

def sampleLocation : Location := ⟨"web", "unix:1:2", "unix:1:3"⟩

def sampleStore : OrderStore := ⟨fun _ => some (sampleText "a" "b"), fun _ => ∅⟩

/-- The second bundle is moved before the first, and an undo is offered. -/
theorem plugin_order_reversible_sample : ∃ inventory s',
    (moveProfilePlugin sampleEnv sampleLocation "b" (some "a") 7).run [] sampleStore =
      (.ok inventory, s') ∧ ∃ id, orderUndoId s' sampleLocation = .ok (some id) := by
  have hplan : planMove sampleEnv sampleLocation "b" (some "a") sampleStore =
      .ok (sampleText "a" "b", sampleText "b" "a") := by rfl
  obtain ⟨inventory, s', hrun⟩ : ∃ inventory s',
      (moveProfilePlugin sampleEnv sampleLocation "b" (some "a") 7).run [] sampleStore =
        (.ok inventory, s') := ⟨_, _, rfl⟩
  obtain ⟨hmove, -, -⟩ := plugin_order_reversible sampleEnv sampleStore (fun _ => rfl) []
    sampleStore rfl sampleLocation
  obtain ⟨before, after, -, hplan', -, -, hoffered⟩ := hmove "b" (some "a") 7 [] inventory s' hrun
  rw [hplan] at hplan'
  obtain ⟨rfl, rfl⟩ := Prod.mk.inj (Except.ok.inj hplan')
  obtain ⟨hlimited, hlater⟩ := hoffered (by decide +kernel)
  exact ⟨inventory, s', hrun, hlater [] trivial hlimited⟩

/-- A move that changes nothing succeeds, and no undo is offered. -/
theorem unchanged_move_not_offered : ∃ inventory s',
    (moveProfilePlugin sampleEnv sampleLocation "b" none 7).run [] sampleStore =
      (.ok inventory, s') ∧ orderUndoId s' sampleLocation = .ok none :=
  ⟨_, _, rfl, rfl⟩

end DshNexus.Agent.PluginMoves
