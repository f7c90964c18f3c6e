import AttributesClient.Image

/-!
# The unpack step of `NewContainer`

Before it builds the container, `NewContainer` (lines 87–97) asks `IsUnpacked` whether the image
is unpacked into the default snapshotter, the name `""`, and calls `Unpack` without options when
it is not.  `IsUnpacked` only reads: against the contract store, once the snapshotter is found,
it answers whether the snapshot of all the image's layers is committed, and changes nothing.  A
successful `Unpack` has committed that snapshot.  So the step settles after one success.

Results:

* `getSnapshotter_steady`: a client that answers the same at every call finds the same
  snapshotter at every call;
* `isUnpacked_of_found`: `IsUnpacked` answers the Stat of the chain ID of the layers, and
  changes nothing;
* `unpack_committed`: a successful `Unpack` has committed the snapshot of all the layers;
* `newContainerUnpack_idempotent`: **the step is idempotent**: once it has returned nil for an
  image with layers, it returns nil again, changes no snapshot, and makes no call of `Unpack`:
  no lease and no Prepare, only the reads of `IsUnpacked` (`isUnpacked_callsOnly`).
* `unpack_of_unpacked_builds_nothing`: **unpacking an unpacked image builds nothing**: where
  the snapshot of every prefix of the layers is committed, `Unpack` itself, whatever its options,
  makes no Prepare and leaves the store as it was.  `Prog.Quiet` is that property of a program,
  a stable one, which the loop of `Unpack` has on such a store.

What this does not say: the step is not idempotent for an image without layers, whose chain ID
is the empty text that no Commit makes, nor when a party other than the store answers
Already-Exists, which `Unpack` takes for a lost race and reports as a success with nothing
committed.  The rest of `NewContainer`, the spec options and `client.NewContainer`, is
containerd's.
-/

namespace AttributesClient

section

variable (fromBytes : String → Digest) (dflt : Defaults)

/-- The unpack step of `NewContainer` (lines 87–97): `IsUnpacked` of the default snapshotter,
then `Unpack` without options unless the image is unpacked already. -/
def newContainerUnpack (fuel : Nat) : Prog (Option Error) :=
  isUnpacked fromBytes dflt "" >>= fun
    | .error err => .pure (some err)
    | .ok unpacked => if !unpacked then unpack fromBytes dflt fuel "" [] else .pure none

end

/-- A client that answers the same at every call finds the same snapshotter at every call. -/
theorem getSnapshotter_steady {dflt : Defaults} {outside : Nat → (q : Query) → Answer q}
    (hst : SteadyClient outside) (name : String) (w w' : World) :
    (Prog.exec (contractEnv outside) (getSnapshotter dflt name) w).2.1 =
      (Prog.exec (contractEnv outside) (getSnapshotter dflt name) w').2.1 := by
  have hk := contractEnv_keepsStore outside
  obtain ⟨r, hr, -⟩ := (resolveSnapshotterName_returnsOffStore dflt name).exec hk w
  obtain ⟨r', hr', -⟩ := (resolveSnapshotterName_returnsOffStore dflt name).exec hk w'
  obtain rfl : r = r' := by
    simpa [hr, hr'] using @resolveSnapshotterName_steady dflt outside hst name w w'
  rw [getSnapshotter, Prog.exec_bind_snd_of_pure (Prod.ext hr rfl),
    Prog.exec_bind_snd_of_pure (Prod.ext hr' rfl)]
  rcases r with e | n
  · rfl
  · rw [Prog.exec_snd_call, Prog.exec_snd_call, contractEnv_answer_other (.snapshotService n) rfl,
      contractEnv_answer_other (.snapshotService n) rfl]
    simp only [fun i => (hst i "" n).2]
    cases outside 0 (.snapshotService n) <;> rfl

/-- The calls that only read: the client's label and snapshotters, the manifest, and a Stat. -/
def Query.IsRead : Query → Prop
  | .getLabel _ | .snapshotService _ | .manifest | .stat _ => True
  | _ => False

/-- A read is no call of `Unpack`, which starts with a lease, and no Prepare. -/
theorem Query.IsRead.not_unpack {q : Query} (h : q.IsRead) :
    q ≠ .withLease ∧ ∀ key parent, q ≠ .prepare key parent :=
  ⟨by rintro rfl; exact h, by rintro key parent rfl; exact h⟩

/-- `IsUnpacked` only reads. -/
theorem isUnpacked_callsOnly (fromBytes : String → Digest) (dflt : Defaults) (name : String) :
    (isUnpacked fromBytes dflt name).CallsOnly Query.IsRead := by
  unfold isUnpacked getSnapshotter rootFS resolveSnapshotterName
  refine Prog.CallsOnly.bind (Prog.CallsOnly.bind ?_ fun
    | .error _ => trivial
    | .ok _ => ⟨trivial, fun found => by dsimp only; split_ifs <;> trivial⟩) fun
    | .error _ => trivial
    | .ok _ => Prog.CallsOnly.bind ⟨trivial, fun | .error _ => trivial | .ok _ => trivial⟩ fun
      | .error _ => trivial
      | .ok _ => ⟨trivial, fun | none => trivial | some _ => trivial⟩
  split_ifs
  exacts [⟨trivial, fun | .error _ => trivial | .ok _ => trivial⟩, trivial]

section Step

variable (fromBytes : String → Digest) (dflt : Defaults) {outside : Nat → (q : Query) → Answer q}
  {manifest : Manifest} (hman : ∀ i, outside i .manifest = .ok manifest)
include hman

/-- Once the snapshotter is found, `IsUnpacked` answers whether the snapshot of all the layers
is committed, and changes nothing. -/
theorem isUnpacked_of_found {name n : String} {w : World}
    (hg : (Prog.exec (contractEnv outside) (getSnapshotter dflt name) w).2.1 = .pure (.ok n)) :
    ∃ w₁, (Prog.exec (contractEnv outside) (isUnpacked fromBytes dflt name) w).2 =
      (.pure (.ok (w.store.has (chainID fromBytes (manifest.layers.map (·.digest))))), w₁) ∧
      w₁.store = w.store := by
  obtain ⟨_, -, hs⟩ :=
    (getSnapshotter_returnsOffStore dflt name).exec (contractEnv_keepsStore outside) w
  rw [isUnpacked, Prog.exec_bind_snd_of_pure (Prod.ext hg rfl), rootFS, Prog.call_bind,
    Prog.exec_snd_call, contractEnv_answer_other .manifest rfl, hman]
  cases hc : w.store.has (chainID fromBytes (manifest.layers.map (·.digest))) <;>
    simp [Prog.exec, Store.stat, IsNotFound, Error.is_sentinel, hs, hc]

/-- Where the snapshotter is found and the snapshot of all the layers is committed, the step
returns nil, changes nothing, and makes only the reads of `IsUnpacked`. -/
theorem newContainerUnpack_of_committed {fuel : Nat} {n : String} {w : World}
    (hg : (Prog.exec (contractEnv outside) (getSnapshotter dflt "") w).2.1 = .pure (.ok n))
    (hc : w.store.has (chainID fromBytes (manifest.layers.map (·.digest))) = true) :
    ∃ es w₁, Prog.exec (contractEnv outside) (newContainerUnpack fromBytes dflt fuel) w =
      (es, .pure none, w₁) ∧ w₁.store = w.store ∧ ∀ ev ∈ es, ev.1.IsRead := by
  obtain ⟨w₁, h₁, hs⟩ := isUnpacked_of_found fromBytes dflt hman hg
  rw [hc] at h₁
  refine ⟨(Prog.exec (contractEnv outside) (isUnpacked fromBytes dflt "") w).1 ++ [], w₁,
    by rw [newContainerUnpack, Prog.exec_bind_of_pure (Prod.ext rfl h₁)]; rfl, hs, fun ev hev => ?_⟩
  rw [List.append_nil] at hev
  exact (isUnpacked_callsOnly fromBytes dflt "").runs (Prog.exec_runs _ w) ev hev

variable (hst : SteadyClient outside) (hn : (contractEnv outside).NeverExists)
include hst hn

/-- A successful `Unpack` has committed the snapshot of every prefix of the layers. -/
theorem unpack_prefixes_committed {fuel : Nat} {name : String}
    {opts : List (UnpackConfig → Except Error UnpackConfig)}
    (hopts : ∀ config, opts.foldlM (fun config o => o config) ⟨false, []⟩ = .ok config →
      ∀ o ∈ config.applyOpts, ∀ desc e, o desc = some e → IsAlreadyExists e = false)
    {w w' : World} {es : List Event}
    (h : Prog.exec (contractEnv outside) (unpack fromBytes dflt fuel name opts) w =
      (es, .pure none, w')) :
    ∀ k, 0 < k → k ≤ manifest.layers.length →
      w'.store.has (chainID fromBytes ((manifest.layers.take k).map (·.digest))) = true := by
  obtain ⟨es₁, w₁, h₁, rfl, -⟩ := exec_unpack_eq_none h
  exact (unpackInLease_unpacked fromBytes dflt hman hst hn hopts h₁).1

/-- A successful `Unpack` without options has committed the snapshot of all the layers. -/
theorem unpack_committed (hL : manifest.layers ≠ []) {fuel : Nat} {name : String} {w w' : World}
    {es : List Event}
    (h : Prog.exec (contractEnv outside) (unpack fromBytes dflt fuel name []) w =
      (es, .pure none, w')) :
    w'.store.has (chainID fromBytes (manifest.layers.map (·.digest))) = true := by
  simpa using unpack_prefixes_committed fromBytes dflt hman hst hn
    (fun _ hc _ ho => by cases hc; cases ho) h _ (List.length_pos.2 hL) le_rfl

/-- **The unpack step of `NewContainer` is idempotent.**  When no party but the snapshot store
answers Already-Exists, the client answers the same at every call, and the manifest lists the
layers `L`, not empty: once the step has returned nil, a second step returns nil, changes no
snapshot, and makes no call of `Unpack`: no lease and no Prepare.  The first step found the
image unpacked or unpacked it; either way the snapshot of `L` is committed, so the second
`IsUnpacked` answers true and `Unpack` is not called. -/
theorem newContainerUnpack_idempotent (hL : manifest.layers ≠ []) (fuel : Nat) {w w' : World}
    {es : List Event}
    (h : Prog.exec (contractEnv outside) (newContainerUnpack fromBytes dflt fuel) w =
      (es, .pure none, w')) :
    ∃ es' w'', Prog.exec (contractEnv outside) (newContainerUnpack fromBytes dflt fuel) w' =
      (es', .pure none, w'') ∧ w''.store = w'.store ∧
      ∀ ev ∈ es', ev.1 ≠ .withLease ∧ ∀ key parent, ev.1 ≠ .prepare key parent := by
  obtain ⟨es₁, a, w₁, h₁, es₂, h₂, -⟩ := Prog.exec_bind_eq_pure h
  obtain ⟨g, hg, -⟩ :=
    (getSnapshotter_returnsOffStore dflt "").exec (contractEnv_keepsStore outside) w
  rcases g with e | n
  · have h₁' := congrArg Prod.snd h₁
    rw [isUnpacked, Prog.exec_bind_snd_of_pure (Prod.ext hg rfl)] at h₁'
    obtain ⟨rfl, rfl⟩ := Prog.exec_snd_pure_eq.1 h₁'
    simp [Prog.exec] at h₂
  suffices hc : w'.store.has (chainID fromBytes (manifest.layers.map (·.digest))) = true by
    obtain ⟨es', w'', h', hs', hr⟩ := newContainerUnpack_of_committed fromBytes dflt hman
      ((getSnapshotter_steady hst "" w' w).trans hg) hc
    exact ⟨es', w'', h', hs', fun ev hev => (hr ev hev).not_unpack⟩
  obtain ⟨w₂, h₁', hs⟩ := isUnpacked_of_found fromBytes dflt hman hg
  rw [h₁] at h₁'
  obtain ⟨⟨⟩, rfl⟩ := Prod.mk.inj_iff.1 h₁'
  cases hc : w.store.has (chainID fromBytes (manifest.layers.map (·.digest))) <;> rw [hc] at h₂
  · exact unpack_committed fromBytes dflt hman hst hn hL h₂
  · obtain ⟨-, -, rfl⟩ := h₂
    rw [hs, hc]

end Step

theorem newContainerUnpack_idempotent_single :
    ∃ es w' es' w'', Prog.exec (contractEnv (imageOutside ⟨⟨"c", "sha256:c", 1⟩,
        [⟨"t", "sha256:a", 1⟩, ⟨"t", "sha256:b", 1⟩]⟩))
        (newContainerUnpack id ⟨"l", "overlayfs"⟩ 3) ⟨⟨[], []⟩, 0⟩ = (es, .pure none, w') ∧
      Prog.exec (contractEnv (imageOutside ⟨⟨"c", "sha256:c", 1⟩,
        [⟨"t", "sha256:a", 1⟩, ⟨"t", "sha256:b", 1⟩]⟩))
        (newContainerUnpack id ⟨"l", "overlayfs"⟩ 3) w' = (es', .pure none, w'') ∧
      w''.store = w'.store ∧
      ∀ ev ∈ es', ev.1 ≠ .withLease ∧ ∀ key parent, ev.1 ≠ .prepare key parent := by
  obtain ⟨es, w', h⟩ : ∃ es w', Prog.exec (contractEnv (imageOutside ⟨⟨"c", "sha256:c", 1⟩,
      [⟨"t", "sha256:a", 1⟩, ⟨"t", "sha256:b", 1⟩]⟩))
      (newContainerUnpack id ⟨"l", "overlayfs"⟩ 3) ⟨⟨[], []⟩, 0⟩ = (es, .pure none, w') :=
    ⟨_, _, rfl⟩
  obtain ⟨es', w'', h₂, hs, hr⟩ := newContainerUnpack_idempotent id ⟨"l", "overlayfs"⟩
    (fun _ => rfl) (by exact fun _ _ _ => ⟨rfl, rfl⟩) (imageOutside_neverExists _)
    (List.cons_ne_nil _ _) 3 h
  exact ⟨es, w', es', w'', h, h₂, hs, hr⟩

/-! ### Unpacking an unpacked image -/

/-- A run of `p >>= f` is the run of `p`, followed, when `p` returned `a`, by a run of `f a`. -/
theorem Prog.exec_bind_cases {σ α β : Type} {env : Env σ} (p : Prog α) (f : α → Prog β) (s : σ) :
    (∃ a, (Prog.exec env p s).2.1 = .pure a ∧ Prog.exec env (p >>= f) s =
      ((Prog.exec env p s).1 ++ (Prog.exec env (f a) (Prog.exec env p s).2.2).1,
        (Prog.exec env (f a) (Prog.exec env p s).2.2).2)) ∨
    ((Prog.exec env (p >>= f) s).1 = (Prog.exec env p s).1 ∧
      (Prog.exec env (p >>= f) s).2.2 = (Prog.exec env p s).2.2) := by
  induction p generalizing s with
  | pure a => exact .inl ⟨a, rfl, rfl⟩
  | call q k ih =>
    rcases ih (env.answer s q).1 (env.answer s q).2 with ⟨a, ha, he⟩ | ⟨h1, h2⟩
    · refine .inl ⟨a, ha, ?_⟩
      show (⟨q, _⟩ :: (Prog.exec env (k _ >>= f) _).1, (Prog.exec env (k _ >>= f) _).2) = _
      rw [he]
      rfl
    · exact .inr ⟨congrArg (List.cons _) h1, h2⟩
  | panic m => exact .inr ⟨rfl, rfl⟩
  | cut => exact .inr ⟨rfl, rfl⟩

/-- Every run of `p` against `env` from the store `S` leaves it `S`, and makes no Prepare. -/
def Prog.Quiet {α : Type} (env : Env World) (S : Store) (p : Prog α) : Prop :=
  ∀ w, w.store = S → (Prog.exec env p w).2.2.store = S ∧
    ∀ ev ∈ (Prog.exec env p w).1, ∀ key parent, ev.1 ≠ .prepare key parent

section Quiet

variable {α β : Type} {env : Env World} {S : Store}

theorem Prog.quiet_pure (a : α) : (Prog.pure a).Quiet env S :=
  fun _ hw => ⟨hw, nofun⟩

theorem Prog.Quiet.bind {p : Prog α} {f : α → Prog β} (hp : p.Quiet env S)
    (hf : ∀ a, (f a).Quiet env S) : (p >>= f).Quiet env S := by
  intro w hw
  obtain ⟨hs, hev⟩ := hp w hw
  rcases Prog.exec_bind_cases p f w with ⟨a, -, he⟩ | ⟨h1, h2⟩
  · obtain ⟨hs', hev'⟩ := hf a _ hs
    rw [he]
    exact ⟨hs', fun ev hm => (List.mem_append.1 hm).elim (hev ev) (hev' ev)⟩
  · rw [h1, h2]
    exact ⟨hs, hev⟩

/-- A call that keeps the store and is not a Prepare keeps a program quiet when the answer of
every world continues quietly. -/
theorem Prog.quiet_call_of_answers {q : Query} {k : Answer q → Prog α}
    (hs : ∀ w, (env.answer w q).2.store = w.store) (hq : ∀ key parent, q ≠ .prepare key parent)
    (h : ∀ w, (k (env.answer w q).1).Quiet env S) : (Prog.call q k).Quiet env S := by
  intro w hw
  obtain ⟨hs', hev⟩ := h w _ ((hs w).trans hw)
  refine ⟨hs', fun ev hm => ?_⟩
  rcases List.mem_cons.1 hm with rfl | hm
  exacts [hq, hev ev hm]

theorem Prog.quiet_call {q : Query} {k : Answer q → Prog α}
    (hs : ∀ w, (env.answer w q).2.store = w.store) (hq : ∀ key parent, q ≠ .prepare key parent)
    (h : ∀ a, (k a).Quiet env S) : (Prog.call q k).Quiet env S :=
  Prog.quiet_call_of_answers hs hq fun _ => h _

/-- A call that every world answers `a` keeps a program quiet when its continuation on `a` is. -/
theorem Prog.quiet_call_of_answer {q : Query} {k : Answer q → Prog α} {a : Answer q}
    (ha : ∀ w, (env.answer w q).1 = a) (hs : ∀ w, (env.answer w q).2.store = w.store)
    (hq : ∀ key parent, q ≠ .prepare key parent) (h : (k a).Quiet env S) :
    (Prog.call q k).Quiet env S :=
  Prog.quiet_call_of_answers hs hq fun w => by rw [ha w]; exact h

variable (hk : env.KeepsStore)
include hk

/-- Being quiet is a stable property. -/
theorem Prog.stable_quiet : Prog.Stable (fun _ p => p.Quiet env S) :=
  ⟨Prog.quiet_pure, Prog.Quiet.bind, fun hq => Prog.quiet_call (fun w => hk.other w _ hq)
    (fun _ _ e => by simp [e, Query.isStore] at hq)⟩

variable (fromBytes : String → Digest)

/-- The build of a layer whose chain is committed only Stats it, whatever the applier. -/
theorem applyArtifactWithOpts_quiet_of_has (fuel : Nat)
    {applier : Descriptor → List Mount → Prog (Except Error Descriptor)} (artifact : Artifact)
    (chain : List Digest) (hc : S.has (chainID fromBytes (chain ++ [artifact.blob.digest])) = true) :
    ((applyArtifactWithOpts fromBytes fuel artifact chain).withApplier applier).Quiet env S := by
  intro w hw
  obtain ⟨ha, hs⟩ := hk.stat w (chainID fromBytes (chain ++ [artifact.blob.digest]))
  simp only [applyArtifactWithOpts, Prog.withApplier, Prog.exec, ha, Store.stat, hw, hc, if_true,
    List.mem_singleton]
  exact ⟨hs.trans hw, fun ev hev => by simp [hev]⟩

/-- The loop of `Unpack` from a chain whose every extension by its layers is committed only
Stats: every build finds its chain. -/
theorem unpackLoop_quiet (fuel : Nat)
    {applier : Descriptor → List Mount → Prog (Except Error Descriptor)} :
    ∀ (chain : List Digest) (artifacts : List Artifact),
      (∀ k, 0 < k → k ≤ artifacts.length →
        S.has (chainID fromBytes (chain ++ (artifacts.take k).map (·.blob.digest))) = true) →
      (unpackLoop fromBytes fuel applier chain artifacts).Quiet env S :=
  unpackLoop_stable_of (Prog.stable_quiet hk) fromBytes fuel (fun chain artifacts =>
      ∀ k, 0 < k → k ≤ artifacts.length →
        S.has (chainID fromBytes (chain ++ (artifacts.take k).map (·.blob.digest))) = true)
    (fun _ _ _ hpre k hk0 hkl => by simpa using hpre (k + 1) (by omega) (by simpa using hkl))
    (fun chain artifact _ hpre => applyArtifactWithOpts_quiet_of_has hk fromBytes fuel artifact
      chain (by simpa using hpre 1 (by omega) (by simp)))

/-- **Unpacking an unpacked image builds nothing.**  Against a snapshotter that keeps its
contract, and a content store that serves the manifest `manifest`, when the snapshot of every
prefix of its layers is committed, a run of `image.Unpack`, whatever its options and whatever
the other parties answer, makes no Prepare and leaves the snapshotter's store as it found it:
the Stat of each layer's chain finds it, and `ApplyArtifactWithOpts` returns at once. -/
theorem unpack_of_unpacked_builds_nothing {manifest : Manifest}
    (hman : ∀ w, (env.answer w .manifest).1 = .ok manifest) (dflt : Defaults) (fuel : Nat)
    (name : String) (opts : List (UnpackConfig → Except Error UnpackConfig)) {w : World}
    (hpre : ∀ k, 0 < k → k ≤ manifest.layers.length →
      w.store.has (chainID fromBytes ((manifest.layers.take k).map (·.digest))) = true) :
    (Prog.exec env (unpack fromBytes dflt fuel name opts) w).2.2.store = w.store ∧
      ∀ ev ∈ (Prog.exec env (unpack fromBytes dflt fuel name opts) w).1, ∀ key parent,
        ev.1 ≠ .prepare key parent := by
  have hd : ∀ l : List Descriptor, (l.map (⟨·⟩ : Descriptor → Artifact)).map (·.blob.digest) =
      l.map (·.digest) := fun l => by simp
  refine unpack_stable (Prog.stable_quiet hk) fromBytes dflt (· = manifest) (fun k _ hm => ?_)
    fuel name opts (fun config m hm => ?_) w rfl
  · exact Prog.quiet_call_of_answer hman (fun w => hk.other w _ rfl) (fun _ _ => nofun)
      (hm manifest rfl)
  · subst hm
    refine unpackLoop_quiet hk fromBytes fuel [] _ fun k hk0 hkl => ?_
    simpa [getArtifacts, ← List.map_take, hd] using hpre k hk0 (by simpa [getArtifacts] using hkl)

end Quiet

theorem unpack_of_unpacked_builds_nothing_single :
    (Prog.exec (contractEnv (imageOutside ⟨⟨"c", "sha256:c", 1⟩, [⟨"t", "sha256:a", 1⟩]⟩))
        (unpack id ⟨"l", "overlayfs"⟩ 2 "" []) ⟨⟨[("sha256:a", "")], []⟩, 0⟩).2.2.store =
        ⟨[("sha256:a", "")], []⟩ ∧
      ∀ ev ∈ (Prog.exec (contractEnv (imageOutside ⟨⟨"c", "sha256:c", 1⟩, [⟨"t", "sha256:a", 1⟩]⟩))
        (unpack id ⟨"l", "overlayfs"⟩ 2 "" []) ⟨⟨[("sha256:a", "")], []⟩, 0⟩).1, ∀ key parent,
        ev.1 ≠ .prepare key parent :=
  unpack_of_unpacked_builds_nothing
    (contractEnv_keepsStore (imageOutside ⟨⟨"c", "sha256:c", 1⟩, [⟨"t", "sha256:a", 1⟩]⟩)) id
    (fun _ => rfl) ⟨"l", "overlayfs"⟩ 2 "" [] fun k hk0 hk1 => by
      obtain rfl : k = 1 := by simpa using Nat.le_antisymm hk1 hk0
      rfl

end AttributesClient
