import AttributesClient.Image
import AttributesClient.Build

/-!
# No view outlives a build

A frame of `applyArtifacts` prepares a view of its parent under a fresh key, applies its layer
onto it and commits it; the deferred cleanup of lines 116–126 removes the view when the frame
returns an error.  Against a snapshotter that keeps its contract (`Env.KeepsStore`), every view
a build prepares is therefore sealed by its Commit or removed, whatever the applier, the clock
and the other parties answer: a run of either entry point of `artifact.go`, or of
`image.Unpack`, that returns, with success or with an error, leaves the store's views as it
found them.

`Prog.KeepsViews env p` says that of one program.  It is kept by sequencing, by calls to parties
other than the store and by Stat.  The loop of a frame is not such a program: it leaves its
accepted view on top of the views it found (`LoopLeaves`), and what follows the loop takes it
off again.

Results:

* `prepareLoop_leaves`: a run of the loop that returns leaves its accepted view on top of the
  views it found, under a key they did not hold, or leaves them as they were;
* `frameRest_views`: what follows the loop takes that view off, by its Commit or by the deferred
  Remove;
* `applyArtifacts_keepsViews`: so every frame keeps the views, by induction over the recursion;
* `applyArtifacts_entries_keep_views`: both entry points of `artifact.go` keep the views;
* `unpack_keeps_views`: so does `image.Unpack`, with the artifact applier handed over
  (`unpack_keepsViews`).

What this does not say: a run that does not return (it ran out of fuel, or panicked) may leave
its view; and a party that breaks the contract breaks the result: a context cancelled before the
deferred Remove (`Build.lean`) has the Remove refused, and the view stays.
-/

namespace AttributesClient

/-! ### What Prepare, Commit and Remove do to the views -/

namespace Store

variable {s : Store} {key parent name : String}

/-- A Prepare that fails leaves the store as it was. -/
theorem prepare_error {e : Error} (h : (s.prepare key parent).1 = .error e) :
    (s.prepare key parent).2 = s := by
  unfold prepare at h ⊢
  split_ifs at h ⊢ <;> rfl

/-- A Prepare that succeeds puts its view on top, under a key no view held. -/
theorem prepare_ok {ms : List Mount} (h : (s.prepare key parent).1 = .ok ms) :
    (s.prepare key parent).2.views = (key, parent) :: s.views ∧ s.hasView key = false := by
  unfold prepare at h ⊢
  split_ifs at h ⊢ with h1
  exact ⟨rfl, by simpa using h1⟩

/-- A Commit that fails leaves the store as it was. -/
theorem commit_error {e : Error} (h : (s.commit name key).1 = some e) :
    (s.commit name key).2 = s := by
  unfold commit at h ⊢
  cases hl : s.views.lookup key with
  | none => rfl
  | some p => by_cases hn : s.has name <;> simp [hl, hn] at h ⊢

/-- A Commit that succeeds takes the view of its key off. -/
theorem commit_ok_views (h : (s.commit name key).1 = none) :
    (s.commit name key).2.views = s.views.filter (·.1 != key) := by
  unfold commit at h ⊢
  cases hl : s.views.lookup key with
  | none => simp [hl] at h
  | some p => by_cases hn : s.has name <;> simp [hl, hn] at h ⊢

/-- A Remove takes the view of its key off, if there is one. -/
theorem remove_views : (s.remove key).2.views = s.views.filter (·.1 != key) := by
  unfold remove
  split_ifs with hv
  · rfl
  · simp only [hasView, Bool.not_eq_true, List.any_eq_false, beq_iff_eq] at hv
    exact (List.filter_eq_self.2 fun v hv' => bne_iff_ne.2 (hv v hv')).symm

/-- Taking off the key of a view put on top of views that never held it. -/
theorem filter_cons_fresh {V : List (String × String)} (hV : V.any (·.1 == key) = false) :
    ((key, parent) :: V).filter (·.1 != key) = V :=
  @filter_views_cons ⟨[], V⟩ key parent hV

end Store

/-! ### Programs that keep the views -/

/-- Every run of `p` against `env` that returns leaves the store's views as it found them. -/
def Prog.KeepsViews {α : Type} (env : Env World) (p : Prog α) : Prop :=
  ∀ w w' a, (Prog.exec env p w).2 = (.pure a, w') → w'.store.views = w.store.views

section Keeps

variable {α β : Type} {env : Env World}

theorem Prog.keepsViews_pure (a : α) : (Prog.pure a).KeepsViews env := by
  intro w w' b h
  rw [(Prog.exec_snd_pure_eq.1 h).2]

theorem Prog.KeepsViews.bind {p : Prog α} {f : α → Prog β} (hp : p.KeepsViews env)
    (hf : ∀ a, (f a).KeepsViews env) : (p >>= f).KeepsViews env := by
  intro w w' b h
  obtain ⟨a, w₁, h₁, h₂⟩ := Prog.exec_bind_snd_eq_pure h
  exact (hf a _ _ _ h₂).trans (hp _ _ _ h₁)

/-- A program with the applier handed over keeps the views when it keeps them against the
parties that answer by the applier. -/
theorem Prog.KeepsViews.withApplier
    {applier : Descriptor → List Mount → Prog (Except Error Descriptor)}
    (hret : ∀ desc mounts w, ∃ a, (Prog.exec env (applier desc mounts) w).2.1 = .pure a)
    {p : Prog α} (hp : p.KeepsViews (env.withApplier applier)) :
    (p.withApplier applier).KeepsViews env :=
  fun w w' a h => hp w w' a (exec_withApplier_eq_pure hret h)

variable (hk : env.KeepsStore)
include hk

theorem Prog.keepsViews_call {q : Query} {k : Answer q → Prog α} (hq : q.isStore = false)
    (h : ∀ a, (k a).KeepsViews env) : (Prog.call q k).KeepsViews env := by
  intro w w' b hr
  rw [Prog.exec_snd_call] at hr
  rw [h _ _ _ _ hr, hk.other w q hq]

theorem Prog.keepsViews_stat {key : String} {k : Answer (.stat key) → Prog α}
    (h : ∀ a, (k a).KeepsViews env) : (Prog.call (.stat key) k).KeepsViews env := by
  intro w w' b hr
  rw [Prog.exec_snd_call] at hr
  rw [h _ _ _ _ hr, (hk.stat w key).2]

theorem Prog.ReturnsOffStore.keepsViews {p : Prog α} (hp : p.ReturnsOffStore) :
    p.KeepsViews env := by
  intro w w' a h
  obtain ⟨-, -, hs⟩ := hp.exec hk w
  rw [h] at hs
  exact congrArg Store.views hs

/-- Keeping the views is a stable property: returns, sequencing and calls off the store keep
them. -/
theorem Prog.stable_keepsViews : Prog.Stable (fun _ p => p.KeepsViews env) :=
  ⟨Prog.keepsViews_pure, Prog.KeepsViews.bind, Prog.keepsViews_call hk⟩

end Keeps

/-! ### A frame takes off the view it put on -/

/-- What a run of the loop that returned `x` leaves of the views `V` it found: on success the
accepted view on top of them, under a key they did not hold; on an error, `V` itself. -/
def LoopLeaves (parent : String) (V : List (String × String)) :
    Except Error (String × List Mount) → List (String × String) → Prop
  | .ok (key, _), V' => V' = (key, parent) :: V ∧ V.any (·.1 == key) = false
  | .error _, V' => V' = V

section Frame

variable {env : Env World} (hk : env.KeepsStore)
include hk

section Loop

variable {rec : List Artifact → List Digest → Prog (Option Error)} {pchain : List Digest}
  {parent chainID : String} {artifacts : List Artifact}

/-- A run of the loop that returns leaves its accepted view on top of the views it found, or
leaves them as they were: a refused Prepare changes nothing, and the recursive call, when it
keeps the views, gives them back. -/
theorem prepareLoop_leaves
    (hrec : 1 < artifacts.length →
      (rec (artifacts.take (artifacts.length - 1)) pchain).KeepsViews env)
    (n : Nat) {arts : List Artifact} (harts : arts = artifacts ∨ arts = []) {w w' : World}
    {x : Except Error (String × List Mount)}
    (h : (Prog.exec env (prepareLoop rec pchain parent chainID n arts) w).2 = (.pure x, w')) :
    LoopLeaves parent w.store.views x w'.store.views := by
  induction n generalizing arts w with
  | zero => simp [prepareLoop, Prog.exec] at h
  | succ n ih =>
    simp only [prepareLoop, uniquePart, Prog.call_bind, Prog.pure_bind', Prog.exec_snd_call] at h
    have hs₁ := hk.other w .nowAndRandom rfl
    generalize env.answer w .nowAndRandom = B at h hs₁
    obtain ⟨tb, w₁⟩ := B
    dsimp only at hs₁ h
    rw [(hk.prepare w₁ _ parent).1] at h
    obtain ⟨-, hp₂⟩ := hk.prepare w₁ (unpackKey (uniqueText tb) chainID) parent
    generalize (env.answer w₁ _).2 = w₂ at h hp₂
    rw [← hs₁]
    cases ha : (w₁.store.prepare (unpackKey (uniqueText tb) chainID) parent).1 with
    | ok ms =>
      rw [ha, prepareNext] at h
      obtain ⟨rfl, rfl⟩ := Prog.exec_snd_pure_eq.1 h
      obtain ⟨hv, hf⟩ := Store.prepare_ok ha
      exact ⟨hp₂ ▸ hv, hf⟩
    | error err =>
      rw [ha, prepareNext] at h
      rw [← show w₂.store = w₁.store from hp₂.trans (Store.prepare_error ha)]
      split_ifs at h with h1 h2
      · obtain rfl : arts = artifacts := harts.resolve_right fun e => by simp [e] at h1
        obtain ⟨b, w₃, h₃, h₄⟩ := Prog.exec_bind_snd_eq_pure h
        rw [← hrec (by simp at h1; exact h1.2) _ _ _ h₃]
        rcases b with _ | e
        · exact ih (.inr rfl) h₄
        · dsimp only at h₄
          split_ifs at h₄
          · exact ih (.inr rfl) h₄
          · obtain ⟨rfl, rfl⟩ := Prog.exec_snd_pure_eq.1 h₄
            exact rfl
      · exact ih harts h
      · obtain ⟨rfl, rfl⟩ := Prog.exec_snd_pure_eq.1 h
        exact rfl

end Loop

/-- What a run of `applyAndCommit` that returned `y` leaves of the views: a Commit that succeeded
took the view of `key` off; otherwise they are as they were. -/
theorem applyAndCommit_views {cid key : String} {artifact : Artifact} {mounts : List Mount}
    {w w' : World} {y : Option Error}
    (h : (Prog.exec env (applyAndCommit cid key artifact mounts) w).2 = (.pure y, w')) :
    (y = none ∧ w'.store.views = w.store.views.filter (·.1 != key)) ∨
      (y.isSome ∧ w'.store.views = w.store.views) := by
  simp only [applyAndCommit, Prog.exec_snd_call] at h
  have hs₁ := hk.other w (.apply artifact.blob mounts) rfl
  generalize env.answer w (.apply artifact.blob mounts) = A at h hs₁
  obtain ⟨e | d, w₂⟩ := A
  · obtain ⟨rfl, rfl⟩ := Prog.exec_snd_pure_eq.1 h
    exact .inr ⟨rfl, by rw [hs₁]⟩
  dsimp only at h hs₁
  rw [← hs₁]
  split_ifs at h
  · obtain ⟨rfl, rfl⟩ := Prog.exec_snd_pure_eq.1 h
    exact .inr ⟨rfl, rfl⟩
  rw [Prog.exec_snd_call, (hk.commit w₂ cid key).1] at h
  have hc₂ := (hk.commit w₂ cid key).2
  cases hc : (w₂.store.commit cid key).1 <;> rw [hc] at h <;>
    obtain ⟨rfl, rfl⟩ := Prog.exec_snd_pure_eq.1 h
  · exact .inl ⟨rfl, by rw [hc₂, Store.commit_ok_views hc]⟩
  · exact .inr ⟨rfl, by rw [hc₂, Store.commit_error hc]⟩

/-- What follows the loop takes the accepted view off again: the Commit seals it, or on an
error the deferred Remove discards it. -/
theorem frameRest_views {cid key parent : String} {artifact : Artifact} {mounts : List Mount}
    {V : List (String × String)} {w w' : World} {r : Option Error}
    (hv : w.store.views = (key, parent) :: V) (hfresh : V.any (·.1 == key) = false)
    (h : (Prog.exec env (frameRest cid artifact (.ok (key, mounts))) w).2 = (.pure r, w')) :
    w'.store.views = V := by
  rw [frameRest] at h
  obtain ⟨y, w₁, h₁, h₂⟩ := Prog.exec_bind_snd_eq_pure h
  rcases applyAndCommit_views hk h₁ with ⟨rfl, hv₁⟩ | ⟨hy, hv₁⟩
  · obtain ⟨-, rfl⟩ := Prog.exec_snd_pure_eq.1 h₂
    rw [hv₁, hv, Store.filter_cons_fresh hfresh]
  · obtain ⟨e, rfl⟩ := Option.isSome_iff_exists.1 hy
    rw [cleanup, Prog.exec_snd_call] at h₂
    obtain ⟨-, rfl⟩ := Prog.exec_snd_pure_eq.1 h₂
    rw [(hk.remove w₁ key).2, Store.remove_views, hv₁, hv, Store.filter_cons_fresh hfresh]

variable (fromBytes : String → Digest)

/-- **Every frame keeps the views**: a frame that returns, with success or with an error, leaves
the views as it found them, whatever its artifacts, its chain and its fuel. -/
theorem applyArtifacts_keepsViews :
    ∀ fuel artifacts chain, (applyArtifacts fromBytes fuel artifacts chain).KeepsViews env
  | 0, _, _ => fun _ _ _ h => by simp [applyArtifacts, Prog.exec] at h
  | fuel + 1, artifacts, chain => fun w w' r h => by
    simp only [applyArtifacts] at h
    split at h
    · simp [Prog.exec] at h
    split at h
    · simp [Prog.exec] at h
    obtain ⟨x, w₁, h₁, h₂⟩ := Prog.exec_bind_snd_eq_pure h
    have hl := prepareLoop_leaves hk (fun _ => applyArtifacts_keepsViews fuel _ _) fuel (.inl rfl) h₁
    rcases x with e | ⟨key, mounts⟩
    · rw [frameRest] at h₂
      rw [← (Prog.exec_snd_pure_eq.1 h₂).2]
      exact hl
    · exact frameRest_views hk hl.1 hl.2 h₂

theorem applyArtifactsWithOpts_keepsViews (fuel : Nat) (artifacts : List Artifact) :
    (applyArtifactsWithOpts fromBytes fuel artifacts).KeepsViews env := by
  refine Prog.keepsViews_stat hk fun
    | none => Prog.keepsViews_pure _
    | some err => ?_
  dsimp only
  split_ifs
  · exact Prog.keepsViews_pure _
  · exact (applyArtifacts_keepsViews hk fromBytes _ _ _).bind fun
      | some _ => Prog.keepsViews_pure _
      | none => Prog.keepsViews_pure _

theorem applyArtifactWithOpts_keepsViews (fuel : Nat) (artifact : Artifact) (chain : List Digest) :
    (applyArtifactWithOpts fromBytes fuel artifact chain).KeepsViews env := by
  refine Prog.keepsViews_stat hk fun
    | none => Prog.keepsViews_pure _
    | some err => ?_
  dsimp only
  split_ifs
  · exact Prog.keepsViews_pure _
  · exact (applyArtifacts_keepsViews hk fromBytes _ _ _).bind fun
      | some _ => Prog.keepsViews_pure _
      | none => Prog.keepsViews_pure _

end Frame

/-- **No view outlives a build.**  Against a snapshotter that keeps its contract, a run of
`ApplyArtifactsWithOpts` or of `ApplyArtifactWithOpts` that returns, with success or with an
error, leaves the snapshotter's views exactly as it found them, whatever the applier, the clock
and every other party answer: each view a frame prepares is sealed by its Commit or discarded by
the deferred Remove. -/
theorem applyArtifacts_entries_keep_views {env : Env World} (hk : env.KeepsStore)
    (fromBytes : String → Digest) (fuel : Nat) {w w' : World} :
    (∀ (artifacts : List Artifact) (r : Except Error Digest),
      (Prog.exec env (applyArtifactsWithOpts fromBytes fuel artifacts) w).2 = (.pure r, w') →
        w'.store.views = w.store.views) ∧
    (∀ (artifact : Artifact) (chain : List Digest) (r : Except Error Bool),
      (Prog.exec env (applyArtifactWithOpts fromBytes fuel artifact chain) w).2 = (.pure r, w') →
        w'.store.views = w.store.views) :=
  ⟨fun artifacts r => applyArtifactsWithOpts_keepsViews hk fromBytes fuel artifacts w w' r,
    fun artifact chain r => applyArtifactWithOpts_keepsViews hk fromBytes fuel artifact chain w w' r⟩

theorem applyArtifacts_entries_keep_views_refused :
    ∃ w', (Prog.exec (contractEnv refusingApplier)
        (applyArtifactsWithOpts id 2 [⟨⟨"application/vnd.oci.image.layer.v1.tar", "sha256:a", 1⟩⟩])
        ⟨⟨[], []⟩, 0⟩).2 = (.pure (.ok "sha256:a"), w') ∧ w'.store.views = [] := by
  obtain ⟨w', h⟩ : ∃ w', (Prog.exec (contractEnv refusingApplier)
      (applyArtifactsWithOpts id 2 [⟨⟨"application/vnd.oci.image.layer.v1.tar", "sha256:a", 1⟩⟩])
      ⟨⟨[], []⟩, 0⟩).2 = (.pure (.ok "sha256:a"), w') := ⟨_, rfl⟩
  exact ⟨w', h, (applyArtifacts_entries_keep_views (contractEnv_keepsStore _) id 2).1 _ _ h⟩

/-! ### `Unpack` keeps the views -/

section Unpack

variable {env : Env World} (hk : env.KeepsStore) (fromBytes : String → Digest) (dflt : Defaults)
include hk

/-- The loop of `Unpack` keeps the views: each build does, with any applier that returns off the
store. -/
theorem unpackLoop_keepsViews (fuel : Nat)
    {applier : Descriptor → List Mount → Prog (Except Error Descriptor)}
    (happ : ∀ desc mounts, (applier desc mounts).ReturnsOffStore) (chain : List Digest)
    (artifacts : List Artifact) : (unpackLoop fromBytes fuel applier chain artifacts).KeepsViews env :=
  unpackLoop_stable (Prog.stable_keepsViews hk) fromBytes fuel (fun artifact chain =>
    Prog.KeepsViews.withApplier (fun desc mounts w => ((happ desc mounts).exec hk w).imp fun _ h => h.1)
      (applyArtifactWithOpts_keepsViews (hk.withApplier happ) fromBytes fuel artifact chain))
    chain artifacts

/-- `Unpack` keeps the views, whatever its options. -/
theorem unpack_keepsViews (fuel : Nat) (name : String)
    (opts : List (UnpackConfig → Except Error UnpackConfig)) :
    (unpack fromBytes dflt fuel name opts).KeepsViews env :=
  unpack_stable (Prog.stable_keepsViews hk) fromBytes dflt (fun _ => True)
    (Prog.stable_keepsViews hk).callManifest fuel name opts
    (fun config _ _ => unpackLoop_keepsViews hk fromBytes fuel
      (artifactApplierApply_returnsOffStore config.applyOpts) _ _)

/-- **`Unpack` leaves no view behind.**  Against a snapshotter that keeps its contract, a run of
`image.Unpack` that returns, with success or with an error, leaves the snapshotter's views as it
found them, whatever the options, the image and the other parties: each layer goes through
`ApplyArtifactWithOpts`, and everything else `Unpack` asks is not the snapshotter's to change. -/
theorem unpack_keeps_views (fuel : Nat) (name : String)
    (opts : List (UnpackConfig → Except Error UnpackConfig)) {w w' : World} {r : Option Error}
    (h : (Prog.exec env (unpack fromBytes dflt fuel name opts) w).2 = (.pure r, w')) :
    w'.store.views = w.store.views :=
  unpack_keepsViews hk fromBytes dflt fuel name opts w w' r h

end Unpack

theorem unpack_keeps_views_single :
    ∃ w', (Prog.exec (contractEnv (imageOutside ⟨⟨"c", "sha256:c", 1⟩, [⟨"t", "sha256:a", 1⟩]⟩))
        (unpack id ⟨"l", "overlayfs"⟩ 2 "" []) ⟨⟨[], []⟩, 0⟩).2 = (.pure none, w') ∧
      w'.store.views = [] := by
  obtain ⟨w', h⟩ : ∃ w', (Prog.exec (contractEnv (imageOutside ⟨⟨"c", "sha256:c", 1⟩,
      [⟨"t", "sha256:a", 1⟩]⟩)) (unpack id ⟨"l", "overlayfs"⟩ 2 "" []) ⟨⟨[], []⟩, 0⟩).2 =
      (.pure none, w') := ⟨_, rfl⟩
  exact ⟨w', h, unpack_keeps_views (contractEnv_keepsStore _) id _ 2 "" [] h⟩

end AttributesClient
