import AttributesClient.Termination
import AttributesClient.Container

/-!
# `Unpack` returns

The only loop of the code that is not over a list is the loop of a frame of `applyArtifacts`,
which retries its Prepare under a new key for as long as the snapshotter answers
Already-Exists, and whose recursion is on one artifact less.  Everything else `Unpack` does is a
call, the loop over the layers, or a run of the applier, which returns off the store.

`Prog.Live fuel p` says that no run of `p` panics, and that a run that stopped for lack of fuel
met at least `fuel - 1` Prepares answered Already-Exists.  It is a stable property; a build of
one layer has it by the accounting of `Termination.lean`; and handing over an applier that
returns off the store keeps it, since the applier's runs return and make no Prepare.

Results:

* `Prog.Live.withApplier`: handing over an applier that returns off the store keeps a program
  live, since the program's own run makes the same Prepares (`Prog.Runs.of_withApplier`);
* `applyArtifactWithOpts_live`: a build of one layer is live;
* `unpack_returns`: **`Unpack` returns**, and so does the unpack step of `NewContainer`: against
  any parties, a run whose fuel exceeds one plus the Already-Exists answers its Prepares met
  returns.

What this does not say: the fuel is the model's.  A snapshotter that answers Already-Exists
forever keeps the loop of the code going, and the model's run stops for lack of fuel.
-/

namespace AttributesClient

/-! ### Live programs -/

/-- No run of `p` panics, and a run that stopped for lack of fuel met at least `fuel - 1`
Prepares answered Already-Exists. -/
def Prog.Live {α : Type} (fuel : Nat) (p : Prog α) : Prop :=
  ∀ es q, Prog.Runs p es q → (∀ m, q ≠ .panic m) ∧ (q = .cut → fuel ≤ 1 + tally .retried es)

section Live

variable {α β : Type} {fuel : Nat}

theorem Prog.live_pure (a : α) : (Prog.pure a).Live fuel := by
  intro es q h
  obtain ⟨rfl, rfl⟩ := Prog.runs_pure.1 h
  exact ⟨fun _ => nofun, nofun⟩

theorem Prog.live_call {q : Query} {k : Answer q → Prog α} (h : ∀ a, (k a).Live fuel) :
    (Prog.call q k).Live fuel := by
  intro es r hr
  rcases Prog.runs_call.1 hr with ⟨rfl, rfl⟩ | ⟨a, es', rfl, hk⟩
  · exact ⟨fun _ => nofun, nofun⟩
  · obtain ⟨hp, hc⟩ := h a es' r hk
    exact ⟨hp, fun e => (hc e).trans (by rw [tally_cons]; omega)⟩

theorem Prog.Live.bind {p : Prog α} {f : α → Prog β} (hp : p.Live fuel)
    (hf : ∀ a, (f a).Live fuel) : (p >>= f).Live fuel := by
  intro es r h
  refine ⟨fun m hm => ?_, fun hc => ?_⟩
  · subst hm
    rcases h.of_bind_panic with h | ⟨a, es₁, es₂, -, -, h⟩
    exacts [(hp _ _ h).1 m rfl, (hf a _ _ h).1 m rfl]
  · obtain ⟨es₁, es₂, p', rfl, h₁, ⟨rfl, hcut⟩ | ⟨a, rfl, h₂⟩⟩ := h.split_bind
    · simpa using (hp _ _ h₁).2 (hcut hc)
    · have := (hf a _ _ h₂).2 hc
      rw [tally_append]
      omega

/-- Being live is a stable property. -/
theorem Prog.stable_live : Prog.Stable (fun _ p => p.Live fuel) :=
  ⟨Prog.live_pure, Prog.Live.bind, fun _ => Prog.live_call⟩

/-- A live program run against any parties returns, unless its fuel ran out after at least
`fuel - 1` Already-Exists answers. -/
theorem Prog.Live.exec_returns {σ : Type} {p : Prog α} (hp : p.Live fuel) (env : Env σ) (s : σ)
    (hf : 1 + tally .retried (Prog.exec env p s).1 < fuel) :
    ∃ r, (Prog.exec env p s).2.1 = .pure r := by
  obtain ⟨hpanic, hcut⟩ := hp _ _ (Prog.exec_runs p s)
  rcases hleaf : (Prog.exec env p s).2.1 with r | ⟨q, k⟩ | m | _
  · exact ⟨r, rfl⟩
  · exact absurd hleaf (Prog.exec_leaf_ne_call p s q k)
  · exact absurd hleaf (hpanic m)
  · have := hcut hleaf
    omega

/-! ### Handing over the applier -/

/-- Only a Prepare, a call to the store, counts as a retry. -/
theorem tally_retried_filter_store (es : List Event) :
    tally .retried (es.filter (·.1.isStore)) = tally .retried es := by
  induction es with
  | nil => rfl
  | cons ev es ih =>
    obtain ⟨q, a⟩ := ev
    by_cases hq : q.isStore = true
    · simp [List.filter_cons, hq, ih]
    · have : Event.cost ⟨q, a⟩ ≠ .retried := by cases q <;> simp_all [Event.cost, Query.isStore]
      simp [List.filter_cons, hq, ih, this]

/-- Handing over an applier that returns off the store keeps a program live: the run of the
program itself makes the same Prepares. -/
theorem Prog.Live.withApplier {applier : Descriptor → List Mount → Prog (Except Error Descriptor)}
    (happ : ∀ desc mounts, (applier desc mounts).ReturnsOffStore) {p : Prog α}
    (hp : p.Live fuel) : (p.withApplier applier).Live fuel := by
  intro es r h
  obtain ⟨es', r', h', hf, hc, hpan⟩ := Prog.Runs.of_withApplier happ h
  have ht : tally .retried es = tally .retried es' := by
    rw [← tally_retried_filter_store es, hf, tally_retried_filter_store]
  exact ⟨fun m hm => (hp _ _ h').1 m (hpan m hm), fun hc' => ht ▸ (hp _ _ h').2 (hc hc')⟩

end Live

/-! ### `Unpack` is live -/

section Unpack

variable (fromBytes : String → Digest) (dflt : Defaults)

/-- A frame on one artifact is live: it panics nowhere, and runs out of fuel only after
`fuel - 1` Already-Exists answers. -/
theorem applyArtifacts_single_live (fuel : Nat) (artifact : Artifact) (chain : List Digest) :
    (applyArtifacts fromBytes fuel [artifact] (chain ++ [artifact.blob.digest])).Live fuel := by
  intro es q h
  refine ⟨fun m hm => applyArtifacts_never_panics fromBytes fuel (frameOk_single artifact chain)
    (hm ▸ h), fun hc => ?_⟩
  simpa using (applyArtifacts_frameTrace fromBytes fuel (List.cons_ne_nil _ _) h).2 hc

theorem applyArtifactWithOpts_live (fuel : Nat) (artifact : Artifact) (chain : List Digest) :
    (applyArtifactWithOpts fromBytes fuel artifact chain).Live fuel := by
  refine Prog.live_call fun
    | none => Prog.live_pure _
    | some err => ?_
  dsimp only
  split_ifs
  · exact Prog.live_pure _
  · exact (applyArtifacts_single_live fromBytes fuel artifact chain).bind fun
      | some _ => Prog.live_pure _
      | none => Prog.live_pure _

theorem unpack_live (fuel : Nat) (name : String)
    (opts : List (UnpackConfig → Except Error UnpackConfig)) :
    (unpack fromBytes dflt fuel name opts).Live fuel :=
  unpack_stable Prog.stable_live fromBytes dflt (fun _ => True) Prog.stable_live.callManifest fuel
    name opts fun config _ _ =>
    unpackLoop_stable Prog.stable_live fromBytes fuel (fun artifact chain =>
      (applyArtifactWithOpts_live fromBytes fuel artifact chain).withApplier
        (artifactApplierApply_returnsOffStore config.applyOpts)) _ _

theorem isUnpacked_live (fuel : Nat) (name : String) :
    (isUnpacked fromBytes dflt name).Live fuel := by
  refine (Prog.stable_live.returnsOffStore (getSnapshotter_returnsOffStore dflt name)).bind
    fun g => ?_
  rcases g with _ | _
  · exact Prog.live_pure _
  refine (Prog.stable_live.returnsOffStore (show rootFS.ReturnsOffStore from
    ⟨rfl, fun | .error _ => trivial | .ok _ => trivial⟩)).bind fun d => ?_
  rcases d with _ | _
  · exact Prog.live_pure _
  · exact Prog.live_call fun
      | none => Prog.live_pure _
      | some _ => Prog.live_pure _

theorem newContainerUnpack_live (fuel : Nat) :
    (newContainerUnpack fromBytes dflt fuel).Live fuel := by
  refine (isUnpacked_live fromBytes dflt fuel "").bind fun u => ?_
  rcases u with _ | unpacked
  · exact Prog.live_pure _
  · dsimp only
    split_ifs
    exacts [unpack_live fromBytes dflt fuel "" [], Prog.live_pure _]

/-- **`Unpack` returns.**  Against any parties, whatever they answer, a run of `image.Unpack`,
or of the unpack step of `NewContainer`, whose fuel exceeds one plus the number of its Prepares
the snapshotter answered Already-Exists, returns: it neither panics nor runs out of fuel.  Each
layer is built by a frame on one artifact, whose loop takes a new turn only on Already-Exists. -/
theorem unpack_returns {σ : Type} (env : Env σ) (fuel : Nat) (name : String)
    (opts : List (UnpackConfig → Except Error UnpackConfig)) (s : σ) :
    (1 + tally .retried (Prog.exec env (unpack fromBytes dflt fuel name opts) s).1 < fuel →
      ∃ r, (Prog.exec env (unpack fromBytes dflt fuel name opts) s).2.1 = .pure r) ∧
    (1 + tally .retried (Prog.exec env (newContainerUnpack fromBytes dflt fuel) s).1 < fuel →
      ∃ r, (Prog.exec env (newContainerUnpack fromBytes dflt fuel) s).2.1 = .pure r) :=
  ⟨(unpack_live fromBytes dflt fuel name opts).exec_returns env s,
    (newContainerUnpack_live fromBytes dflt fuel).exec_returns env s⟩

end Unpack

theorem unpack_returns_single :
    (1 + tally .retried (Prog.exec (contractEnv (imageOutside ⟨⟨"c", "sha256:c", 1⟩,
        [⟨"t", "sha256:a", 1⟩]⟩)) (unpack id ⟨"l", "overlayfs"⟩ 2 "" []) ⟨⟨[], []⟩, 0⟩).1 < 2 ∧
      ∃ r, (Prog.exec (contractEnv (imageOutside ⟨⟨"c", "sha256:c", 1⟩, [⟨"t", "sha256:a", 1⟩]⟩))
        (unpack id ⟨"l", "overlayfs"⟩ 2 "" []) ⟨⟨[], []⟩, 0⟩).2.1 = .pure r) ∧
    (1 + tally .retried (Prog.exec (contractEnv (imageOutside ⟨⟨"c", "sha256:c", 1⟩,
        [⟨"t", "sha256:a", 1⟩]⟩)) (newContainerUnpack id ⟨"l", "overlayfs"⟩ 2) ⟨⟨[], []⟩, 0⟩).1 < 2 ∧
      ∃ r, (Prog.exec (contractEnv (imageOutside ⟨⟨"c", "sha256:c", 1⟩, [⟨"t", "sha256:a", 1⟩]⟩))
        (newContainerUnpack id ⟨"l", "overlayfs"⟩ 2) ⟨⟨[], []⟩, 0⟩).2.1 = .pure r) := by
  have h := unpack_returns id ⟨"l", "overlayfs"⟩
    (contractEnv (imageOutside ⟨⟨"c", "sha256:c", 1⟩, [⟨"t", "sha256:a", 1⟩]⟩)) 2 "" []
    ⟨⟨[], []⟩, 0⟩
  exact ⟨⟨by decide, h.1 (by decide)⟩, ⟨by decide, h.2 (by decide)⟩⟩

end AttributesClient
