import AttributesClient.Applier

/-!
# Unpacking an image (`aritfact/image.go`)

`image.Unpack` resolves the image's manifest to its layers and builds them one by one with
`ApplyArtifactWithOpts`, each on the chain of the layers before it, handing it an
`artifactApplier`; it then labels the image's config blob with the chain ID of all the layers,
for the garbage collector.  `image.IsUnpacked` recomputes that chain ID from the manifest
(`RootFS`) and asks the snapshotter whether it has a snapshot of it.

`getSnapshotter` hands the snapshotter over as its resolved name, and the snapshotter's calls
that follow go to the snapshotter of that name.  Against `contractEnv` every name reaches its one
store; `namedEnv` (`Snapshotters.lean`) keeps a store per name, and there `Unpack` and
`IsUnpacked` run on the store of the name they resolve, as against `contractEnv` on that store.

Results:

* `unpack_stable`: a property that returns have, that sequencing and calls off the store keep,
  and that the builds of the loop have, `Unpack` has; `unpackLoop_stable_of` asks it of the
  builds only on the chains a hypothesis of the loop admits;
* `unpack_unpacked`: against the one store, when no party but the store answers Already-Exists,
  a successful `Unpack` has committed every prefix of the layers and labelled the config blob
  for the snapshotter its name resolves to, and a later `IsUnpacked` answers true.
-/

namespace AttributesClient

/-- The containerd constants the image code reads, whose values are outside the repository:
`defaults.DefaultSnapshotterNSLabel` and `containerd.DefaultSnapshotter`. -/
structure Defaults where
  snapshotterNSLabel : String
  snapshotter : String

/-- `containerd.UnpackConfig`, with the fields `Unpack` reads (the snapshot options go to the
snapshotter, which the model's store does not read). -/
structure UnpackConfig where
  checkPlatformSupported : Bool
  applyOpts : List (Descriptor → Option Error)

section

variable (fromBytes : String → Digest) (dflt : Defaults)

/-- `resolveSnapshotterName` (lines 377–392). -/
def resolveSnapshotterName (name : String) : Prog (Except Error String) :=
  if name = "" then
    .call (.getLabel dflt.snapshotterNSLabel) fun
      | .error err => .pure (.error err)
      | .ok label => .pure (.ok (if label ≠ "" then label else dflt.snapshotter))
  else .pure (.ok name)

/-- `getSnapshotter` (lines 363–375); the snapshotter is returned as its resolved name, whose
snapshotter the calls that follow reach (`namedEnv`). -/
def getSnapshotter (name : String) : Prog (Except Error String) :=
  resolveSnapshotterName dflt name >>= fun
    | .error err => .pure (.error err)
    | .ok name => .call (.snapshotService name) fun (found : Bool) =>
      if found then .pure (.ok name)
      else .pure (.error (.wrap ("snapshotter " ++ name ++ " was not found") (.sentinel .notFound)))

/-- `image.RootFS` (lines 99–110): the digests of the manifest's layers. -/
def rootFS : Prog (Except Error (List Digest)) :=
  .call .manifest fun
    | .error err => .pure (.error err)
    | .ok manifest => .pure (.ok (manifest.layers.map (·.digest)))

/-- `image.IsUnpacked` (lines 129–149). -/
def isUnpacked (name : String) : Prog (Except Error Bool) :=
  getSnapshotter dflt name >>= fun
    | .error err => .pure (.error err)
    | .ok _ => rootFS >>= fun
      | .error err => .pure (.error err)
      | .ok diffs => .call (.stat (chainID fromBytes diffs)) fun
        | none => .pure (.ok true)
        | some err => .pure (if !IsNotFound err then .error err else .ok false)

/-- `image.getArtifacts` (lines 266–272). -/
def getArtifacts (manifest : Manifest) : List Artifact := manifest.layers.map (⟨·⟩)

/-- `image.checkSnapshotterSupport` (lines 288–303). -/
def checkSnapshotterSupport (name : String) (manifest : Manifest) : Prog (Option Error) :=
  .call (.supportedPlatforms name) fun
    | .error err => .pure (some err)
    | .ok matcher => .call (.configPlatform manifest.config) fun
      | .error err => .pure (some err)
      | .ok platform => .pure (if matcher platform then none else some (.new ("snapshotter " ++
          name ++ " does not support platform " ++ platform ++ " for image " ++
          manifest.config.digest)))

/-- The loop of lines 216–237 from the chain `chain` on: each layer is built on the chain before
it, through `applier`; a layer this call applied gets its uncompressed label.  It returns the
chain of all the layers. -/
def unpackLoop (fuel : Nat) (applier : Descriptor → List Mount → Prog (Except Error Descriptor)) :
    List Digest → List Artifact → Prog (Except Error (List Digest))
  | chain, [] => .pure (.ok chain)
  | chain, artifact :: rest =>
    (applyArtifactWithOpts fromBytes fuel artifact chain).withApplier applier >>= fun
      | .error err => .pure (.error err)
      | .ok unpacked =>
        if unpacked then
          .call (.update ⟨artifact.blob.digest, [("containerd.io/uncompressed",
              artifact.blob.digest)]⟩ ["labels.containerd.io/uncompressed"]) fun
            | some err => .pure (.error err)
            | none => unpackLoop fuel applier (chain ++ [artifact.blob.digest]) rest
        else unpackLoop fuel applier (chain ++ [artifact.blob.digest]) rest

/-- The body of `image.Unpack` inside its lease (lines 178–254).  The snapshotter calls of the
loop go to the snapshotter `getSnapshotter` found, the one `name` resolves to
(`unpackInLease_runsOn`). -/
def unpackInLease (fuel : Nat) (name : String)
    (opts : List (UnpackConfig → Except Error UnpackConfig)) : Prog (Option Error) :=
  match opts.foldlM (fun config o => o config) ⟨false, []⟩ with
  | .error err => .pure (some err)
  | .ok config =>
    .call .manifest fun
      | .error err => .pure (some err)
      | .ok manifest =>
        resolveSnapshotterName dflt name >>= fun
          | .error err => .pure (some err)
          | .ok name =>
            getSnapshotter dflt name >>= fun
              | .error err => .pure (some err)
              | .ok _ =>
                (if config.checkPlatformSupported then checkSnapshotterSupport name manifest
                  else .pure none) >>= fun
                  | some err => .pure (some err)
                  | none =>
                    unpackLoop fromBytes fuel (artifactApplierApply config.applyOpts) []
                        (getArtifacts manifest) >>= fun
                      | .error err => .pure (some err)
                      | .ok chain => .call .imageConfig fun
                        | .error err => .pure (some err)
                        | .ok desc => .call (.update ⟨desc.digest,
                            [("containerd.io/gc.ref.snapshot." ++ name, chainID fromBytes chain)]⟩
                            ["labels.containerd.io/gc.ref.snapshot." ++ name]) .pure

/-- `image.Unpack` (lines 171–255): the body runs in a lease, released by the deferred `done`,
whose error is dropped. -/
def unpack (fuel : Nat) (name : String) (opts : List (UnpackConfig → Except Error UnpackConfig)) :
    Prog (Option Error) :=
  .call .withLease fun
    | some err => .pure (some err)
    | none => unpackInLease fromBytes dflt fuel name opts >>= fun r =>
      .call .leaseDone fun _ => .pure r

end

/-! ### The snapshotter, resolved twice -/

/-- The client answers the same at every call: the label of the default snapshotter, and which
snapshotters it has. -/
def SteadyClient (outside : Nat → (q : Query) → Answer q) : Prop :=
  ∀ i key name, outside i (.getLabel key) = outside 0 (.getLabel key) ∧
    outside i (.snapshotService name) = outside 0 (.snapshotService name)

section Steady

variable (dflt : Defaults)

theorem resolveSnapshotterName_returnsOffStore (name : String) :
    (resolveSnapshotterName dflt name).ReturnsOffStore := by
  unfold resolveSnapshotterName
  split_ifs
  exacts [⟨rfl, fun | .error _ => trivial | .ok _ => trivial⟩, trivial]

theorem getSnapshotter_returnsOffStore (name : String) : (getSnapshotter dflt name).ReturnsOffStore :=
  (resolveSnapshotterName_returnsOffStore dflt name).bind fun
    | .error _ => trivial
    | .ok _ => ⟨rfl, fun found => by dsimp only; split_ifs <;> trivial⟩

variable {dflt} {outside : Nat → (q : Query) → Answer q} (hst : SteadyClient outside)
include hst

theorem resolveSnapshotterName_steady (name : String) (w w' : World) :
    (Prog.exec (contractEnv outside) (resolveSnapshotterName dflt name) w).2.1 =
      (Prog.exec (contractEnv outside) (resolveSnapshotterName dflt name) w').2.1 := by
  unfold resolveSnapshotterName
  split_ifs
  · rw [Prog.exec_snd_call, Prog.exec_snd_call, contractEnv_answer_other (.getLabel _) rfl,
      contractEnv_answer_other (.getLabel _) rfl, (hst w.calls _ "").1, (hst w'.calls _ "").1]
    rcases outside 0 (.getLabel dflt.snapshotterNSLabel) with e | l <;> rfl
  · rfl

/-- Resolving a resolved name gives it back. -/
theorem resolveSnapshotterName_resolved {name n : String} {w : World}
    (h : (Prog.exec (contractEnv outside) (resolveSnapshotterName dflt name) w).2.1 = .pure (.ok n))
    (w' : World) :
    (Prog.exec (contractEnv outside) (resolveSnapshotterName dflt n) w').2.1 = .pure (.ok n) := by
  unfold resolveSnapshotterName at h ⊢
  split_ifs at h with hname
  · rw [Prog.exec_snd_call, contractEnv_answer_other (.getLabel _) rfl, (hst w.calls _ "").1] at h
    rcases hl : outside 0 (.getLabel dflt.snapshotterNSLabel) with e | l <;> rw [hl] at h
    · cases h
    split_ifs with hn
    · rw [Prog.exec_snd_call, contractEnv_answer_other (.getLabel _) rfl, (hst w'.calls _ "").1, hl]
      exact h
    · rfl
  · cases h
    rw [if_neg hname]
    rfl

/-- **Where `Unpack` found its snapshotter, `IsUnpacked` finds it**: `Unpack` resolves the name
and asks for the snapshotter of the resolved name; `getSnapshotter` of the name itself resolves
it once, to the same name. -/
theorem getSnapshotter_of_resolved {name n x : String} {w₁ w₂ : World}
    (hr : (Prog.exec (contractEnv outside) (resolveSnapshotterName dflt name) w₁).2.1 = .pure (.ok n))
    (hg : (Prog.exec (contractEnv outside) (getSnapshotter dflt n) w₂).2.1 = .pure (.ok x))
    (w : World) :
    (Prog.exec (contractEnv outside) (getSnapshotter dflt name) w).2.1 = .pure (.ok n) := by
  have found : ∀ w₃ : World, outside w₃.calls (.snapshotService n) = true := by
    intro w₃
    rw [getSnapshotter, Prog.exec_bind_snd_of_pure
      (Prod.ext (resolveSnapshotterName_resolved hst hr w₂) rfl), Prog.exec_snd_call,
      contractEnv_answer_other (.snapshotService _) rfl, (hst _ "" n).2] at hg
    rw [(hst _ "" n).2]
    revert hg
    cases outside 0 (.snapshotService n) <;> simp [Prog.exec]
  rw [getSnapshotter, Prog.exec_bind_snd_of_pure
    (Prod.ext ((resolveSnapshotterName_steady hst name w w₁).trans hr) rfl), Prog.exec_snd_call,
    contractEnv_answer_other (.snapshotService _) rfl]
  simp [found, Prog.exec]

end Steady

/-! ### What every part of `Unpack` around its loop keeps -/

/-- A property of programs that returns have, that sequencing keeps, and that a call to a party
other than the snapshot store keeps.  Everything `Unpack` does around its loop is built from
these, so a stable property that the loop's builds have, `Unpack` has. -/
structure Prog.Stable (P : (α : Type) → Prog α → Prop) : Prop where
  /-- A return has it. -/
  pure : ∀ {α : Type} (a : α), P α (.pure a)
  /-- Sequencing keeps it. -/
  bind : ∀ {α β : Type} {p : Prog α} {f : α → Prog β}, P α p → (∀ a, P β (f a)) → P β (p >>= f)
  /-- A call to a party other than the store keeps it. -/
  call : ∀ {α : Type} {q : Query} {k : Answer q → Prog α}, q.isStore = false →
    (∀ a, P α (k a)) → P α (.call q k)

section Stable

variable {P : (α : Type) → Prog α → Prop} (hP : Prog.Stable P)
include hP

/-- A program that returns off the store has every stable property. -/
theorem Prog.Stable.returnsOffStore {α : Type} {p : Prog α} (hp : p.ReturnsOffStore) : P α p := by
  induction p with
  | pure a => exact hP.pure a
  | call q k ih => exact hP.call hp.1 fun a => ih a (hp.2 a)
  | panic m => exact hp.elim
  | cut => exact hp.elim

variable (fromBytes : String → Digest) (dflt : Defaults)

/-- The loop of `Unpack` from `chain` has a stable property when each of its builds, with the
applier handed over, has it, on every chain and layers that `Q` admits; `Q` goes from one layer
to the next. -/
theorem unpackLoop_stable_of (fuel : Nat)
    {applier : Descriptor → List Mount → Prog (Except Error Descriptor)}
    (Q : List Digest → List Artifact → Prop)
    (hQ : ∀ chain artifact rest, Q chain (artifact :: rest) →
      Q (chain ++ [artifact.blob.digest]) rest)
    (happly : ∀ chain artifact rest, Q chain (artifact :: rest) →
      P _ ((applyArtifactWithOpts fromBytes fuel artifact chain).withApplier applier)) :
    ∀ chain artifacts, Q chain artifacts → P _ (unpackLoop fromBytes fuel applier chain artifacts)
  | _, [], _ => hP.pure _
  | chain, artifact :: rest, hq => by
    rw [unpackLoop]
    refine hP.bind (happly chain artifact rest hq) fun x => ?_
    rcases x with _ | unpacked
    · exact hP.pure _
    dsimp only
    split_ifs
    · exact hP.call rfl fun
        | some _ => hP.pure _
        | none => unpackLoop_stable_of fuel Q hQ happly _ rest (hQ _ _ _ hq)
    · exact unpackLoop_stable_of fuel Q hQ happly _ rest (hQ _ _ _ hq)

/-- The loop of `Unpack` has a stable property when each of its builds, with the applier handed
over, has it. -/
theorem unpackLoop_stable (fuel : Nat)
    {applier : Descriptor → List Mount → Prog (Except Error Descriptor)}
    (happly : ∀ artifact chain,
      P _ ((applyArtifactWithOpts fromBytes fuel artifact chain).withApplier applier))
    (chain : List Digest) (artifacts : List Artifact) :
    P _ (unpackLoop fromBytes fuel applier chain artifacts) :=
  unpackLoop_stable_of hP fromBytes fuel (fun _ _ => True) (fun _ _ _ _ => trivial)
    (fun chain artifact _ _ => happly artifact chain) chain artifacts trivial

/-- With every manifest admitted, the call for the manifest keeps a stable property. -/
theorem Prog.Stable.callManifest {α : Type} (k : Answer .manifest → Prog α)
    (he : ∀ e, P α (k (.error e))) (hm : ∀ m, True → P α (k (.ok m))) : P α (.call .manifest k) :=
  hP.call rfl fun
    | .error e => he e
    | .ok m => hm m trivial

/-- The body of `Unpack` in its lease has a stable property when the call for the manifest keeps
it on the manifests `M` admits, and the loop has it on their layers, for the applier of every
configuration. -/
theorem unpackInLease_stable (M : Manifest → Prop)
    (hcall : ∀ {α : Type} (k : Answer .manifest → Prog α), (∀ e, P α (k (.error e))) →
      (∀ m, M m → P α (k (.ok m))) → P α (.call .manifest k))
    (fuel : Nat) (name : String) (opts : List (UnpackConfig → Except Error UnpackConfig))
    (hloop : ∀ (config : UnpackConfig) m, M m →
      P _ (unpackLoop fromBytes fuel (artifactApplierApply config.applyOpts) [] (getArtifacts m))) :
    P _ (unpackInLease fromBytes dflt fuel name opts) := by
  unfold unpackInLease
  split
  · exact hP.pure _
  refine hcall _ (fun _ => hP.pure _) fun manifest hm => ?_
  refine hP.bind (hP.returnsOffStore (resolveSnapshotterName_returnsOffStore dflt name)) fun r => ?_
  rcases r with _ | n
  · exact hP.pure _
  refine hP.bind (hP.returnsOffStore (getSnapshotter_returnsOffStore dflt n)) fun g => ?_
  rcases g with _ | _
  · exact hP.pure _
  refine hP.bind (hP.returnsOffStore ?_) fun c => ?_
  · split_ifs
    exacts [⟨rfl, fun | .error _ => trivial | .ok _ => ⟨rfl, fun | .error _ => trivial | .ok _ => trivial⟩⟩,
      trivial]
  rcases c with _ | _
  swap
  · exact hP.pure _
  refine hP.bind (hloop _ _ hm) fun u => ?_
  rcases u with _ | chain
  · exact hP.pure _
  refine hP.call rfl fun ic => ?_
  rcases ic with _ | desc
  · exact hP.pure _
  exact hP.call rfl hP.pure

/-- So does `Unpack`, which runs that body in a lease. -/
theorem unpack_stable (M : Manifest → Prop)
    (hcall : ∀ {α : Type} (k : Answer .manifest → Prog α), (∀ e, P α (k (.error e))) →
      (∀ m, M m → P α (k (.ok m))) → P α (.call .manifest k))
    (fuel : Nat) (name : String) (opts : List (UnpackConfig → Except Error UnpackConfig))
    (hloop : ∀ (config : UnpackConfig) m, M m →
      P _ (unpackLoop fromBytes fuel (artifactApplierApply config.applyOpts) [] (getArtifacts m))) :
    P _ (unpack fromBytes dflt fuel name opts) := by
  unfold unpack
  refine hP.call rfl fun lease => ?_
  rcases lease with _ | _
  · exact hP.bind (unpackInLease_stable hP fromBytes dflt M hcall fuel name opts hloop) fun _ =>
      hP.call rfl fun _ => hP.pure _
  · exact hP.pure _

end Stable

/-! ### What a successful `Unpack` leaves -/

section Loop

variable (fromBytes : String → Digest) {env : Env World} (hk : env.KeepsStore)
  {applier : Descriptor → List Mount → Prog (Except Error Descriptor)}
  (hret : ∀ desc mounts w, ∃ a, (Prog.exec env (applier desc mounts) w).2.1 = .pure a)
  (hk' : (env.withApplier applier).KeepsStore) (hn' : (env.withApplier applier).NeverExists)
include hk hret hk' hn'

/-- **The loop of `Unpack`, when it succeeds, has committed every chain it built**: it returns
the chain with the digests of its layers, and the snapshot of every chain it went through is
committed. -/
theorem unpackLoop_committed (fuel : Nat) :
    ∀ (chain : List Digest) (artifacts : List Artifact) {w w' : World} {c : List Digest},
      (Prog.exec env (unpackLoop fromBytes fuel applier chain artifacts) w).2 = (.pure (.ok c), w') →
      c = chain ++ artifacts.map (·.blob.digest) ∧
        ∀ k, 0 < k → k ≤ artifacts.length →
          w'.store.has (chainID fromBytes (chain ++ (artifacts.take k).map (·.blob.digest))) = true
  | chain, [], w, w', c, h => by
    simp only [unpackLoop, Prog.exec, Prod.mk.injEq, Prog.pure.injEq, Except.ok.injEq] at h
    exact ⟨by simp [h.1], fun k hk0 hkl => by simp at hkl; omega⟩
  | chain, a :: rest, w, w', c, h => by
    simp only [unpackLoop] at h
    obtain ⟨x, w₁, h₁, h₂⟩ := Prog.exec_bind_snd_eq_pure h
    rcases x with err | unpacked
    · simp [Prog.exec] at h₂
    have hc := applyArtifactWithOpts_ok_committed hk' hn' fromBytes fuel a chain
      (exec_withApplier_eq_pure hret h₁)
    obtain ⟨w₂, h₃, hw₂⟩ : ∃ w₂, (Prog.exec env (unpackLoop fromBytes fuel applier
        (chain ++ [a.blob.digest]) rest) w₂).2 = (.pure (.ok c), w') ∧
        w₂.store.has (chainID fromBytes (chain ++ [a.blob.digest])) = true := by
      dsimp only at h₂
      split_ifs at h₂
      · rw [Prog.exec_snd_call] at h₂
        have hs := hk.other w₁ (.update ⟨a.blob.digest, [("containerd.io/uncompressed",
          a.blob.digest)]⟩ ["labels.containerd.io/uncompressed"]) rfl
        generalize env.answer w₁ _ = A at h₂ hs
        obtain ⟨_ | err, w₂⟩ := A
        · exact ⟨w₂, h₂, hs ▸ hc⟩
        · simp [Prog.exec] at h₂
      · exact ⟨w₁, h₂, hc⟩
    obtain ⟨rfl, hall⟩ := unpackLoop_committed fuel _ rest h₃
    refine ⟨by simp, fun k hk0 hkl => ?_⟩
    match k, hkl with
    | 1, _ => simpa [show w' = (Prog.exec env _ w₂).2.2 by rw [h₃]] using hk.exec_has _ hw₂
    | k + 2, hkl => simpa using hall (k + 1) (by omega) (by simp at hkl; omega)

end Loop

/-- A run of `Unpack` that returns nil is a run of its body that returns nil, between taking the
lease and releasing it, which changes no store. -/
theorem exec_unpack_eq_none {fromBytes : String → Digest} {dflt : Defaults}
    {outside : Nat → (q : Query) → Answer q} {fuel : Nat} {name : String}
    {opts : List (UnpackConfig → Except Error UnpackConfig)} {w w' : World} {es : List Event}
    (h : Prog.exec (contractEnv outside) (unpack fromBytes dflt fuel name opts) w =
      (es, .pure none, w')) :
    ∃ es₁ w₁, Prog.exec (contractEnv outside) (unpackInLease fromBytes dflt fuel name opts)
        ⟨w.store, w.calls + 1⟩ = (es₁, .pure none, w₁) ∧ w' = ⟨w₁.store, w₁.calls + 1⟩ ∧
      ∀ ev ∈ es₁, ev ∈ es := by
  obtain ⟨es₀, rfl, h₀⟩ := exec_contractEnv_call_eq h rfl
  generalize outside w.calls .withLease = lease at h₀
  rcases lease with _ | err
  swap
  · simp [Prog.exec] at h₀
  obtain ⟨es₁, r, w₁, h₁, es₂, h₂, rfl⟩ := Prog.exec_bind_eq_pure h₀
  obtain ⟨es₃, rfl, h₃⟩ := exec_contractEnv_call_eq h₂ rfl
  simp only [Prog.exec, Prod.mk.injEq, Prog.pure.injEq] at h₃
  obtain ⟨rfl, rfl, rfl⟩ := h₃
  exact ⟨es₁, w₁, h₁, rfl, fun ev hev => by simp [hev]⟩

section Unpack

variable (fromBytes : String → Digest) (dflt : Defaults) {outside : Nat → (q : Query) → Answer q}
  {manifest : Manifest} (hman : ∀ i, outside i .manifest = .ok manifest)
include hman

/-- `IsUnpacked` answers true where the snapshotter is found and the snapshot of the manifest's
layers is committed. -/
theorem isUnpacked_of_committed {name n : String} {w : World}
    (hg : (Prog.exec (contractEnv outside) (getSnapshotter dflt name) w).2.1 = .pure (.ok n))
    (hc : w.store.has (chainID fromBytes (manifest.layers.map (·.digest)))) :
    (Prog.exec (contractEnv outside) (isUnpacked fromBytes dflt name) w).2.1 = .pure (.ok true) := by
  obtain ⟨_, -, hs⟩ := (getSnapshotter_returnsOffStore dflt name).exec (contractEnv_keepsStore outside) w
  rw [isUnpacked, Prog.exec_bind_snd_of_pure (Prod.ext hg rfl), rootFS, Prog.call_bind,
    Prog.exec_snd_call, contractEnv_answer_other .manifest rfl, hman]
  simp [Prog.exec, Store.stat, hs, hc]

variable (hst : SteadyClient outside) (hn : (contractEnv outside).NeverExists)
include hst hn

/-- The body of `Unpack` in its lease, when it succeeds: every prefix of the layers committed,
and, for the name `name` resolves to, the snapshotter found wherever it is asked for and the
label written for it. -/
theorem unpackInLease_unpacked {fuel : Nat} {name : String}
    {opts : List (UnpackConfig → Except Error UnpackConfig)}
    (hopts : ∀ config, opts.foldlM (fun config o => o config) ⟨false, []⟩ = .ok config →
      ∀ o ∈ config.applyOpts, ∀ desc e, o desc = some e → IsAlreadyExists e = false)
    {w w' : World} {es : List Event}
    (h : Prog.exec (contractEnv outside) (unpackInLease fromBytes dflt fuel name opts) w =
      (es, .pure none, w')) :
    (∀ k, 0 < k → k ≤ manifest.layers.length →
      w'.store.has (chainID fromBytes ((manifest.layers.take k).map (·.digest))) = true) ∧
    ∃ n, (∀ v, (Prog.exec (contractEnv outside) (resolveSnapshotterName dflt name) v).2.1 =
        .pure (.ok n)) ∧
      (∀ v, (Prog.exec (contractEnv outside) (getSnapshotter dflt name) v).2.1 = .pure (.ok n)) ∧
      ∃ desc : Descriptor, (⟨.update ⟨desc.digest, [("containerd.io/gc.ref.snapshot." ++ n,
        chainID fromBytes (manifest.layers.map (·.digest)))]⟩
        ["labels.containerd.io/gc.ref.snapshot." ++ n], none⟩ : Event) ∈ es := by
  simp only [unpackInLease] at h
  split at h
  · simp [Prog.exec] at h
  rename_i config hconfig
  obtain ⟨es₁, rfl, h₁⟩ := exec_contractEnv_call_eq h rfl
  rw [hman] at h₁
  obtain ⟨esR, r, w₁, hR, es₂, h₂, rfl⟩ := Prog.exec_bind_eq_pure h₁
  rcases r with err | n
  · simp [Prog.exec] at h₂
  obtain ⟨esG, g, w₂, hG, es₃, h₃, rfl⟩ := Prog.exec_bind_eq_pure h₂
  rcases g with err | x
  · simp [Prog.exec] at h₃
  obtain ⟨esP, pc, w₃, -, es₄, h₄, rfl⟩ := Prog.exec_bind_eq_pure h₃
  rcases pc with _ | err
  swap
  · simp [Prog.exec] at h₄
  obtain ⟨esU, u, w₄, hU, es₅, h₅, rfl⟩ := Prog.exec_bind_eq_pure h₄
  rcases u with err | chain
  · simp [Prog.exec] at h₅
  obtain ⟨es₆, rfl, h₆⟩ := exec_contractEnv_call_eq h₅ rfl
  generalize outside w₄.calls .imageConfig = ic at h₆
  rcases ic with err | desc
  · simp [Prog.exec] at h₆
  obtain ⟨es₇, rfl, h₇⟩ := exec_contractEnv_call_eq h₆ rfl
  simp only [Prog.exec, Prod.mk.injEq, Prog.pure.injEq] at h₇
  obtain ⟨rfl, hu, rfl⟩ := h₇
  have hk := contractEnv_keepsStore outside
  have hk' := hk.withApplier (artifactApplierApply_returnsOffStore config.applyOpts)
  have hn' := hn.withApplier hk (hopts config hconfig)
  obtain ⟨rfl, hall⟩ := unpackLoop_committed fromBytes hk
    (fun d ms w => ((artifactApplierApply_returnsOffStore _ d ms).exec hk w).imp fun _ h => h.1)
    hk' hn' fuel [] _ (congrArg Prod.snd hU)
  have hd : ∀ l : List Descriptor, (l.map (⟨·⟩ : Descriptor → Artifact)).map (·.blob.digest) =
      l.map (·.digest) := fun l => by simp
  refine ⟨fun k hk0 hkl => ?_, n, fun v => (resolveSnapshotterName_steady hst name v _).trans
    (congrArg (·.2.1) hR), getSnapshotter_of_resolved hst (congrArg (·.2.1) hR)
    (congrArg (·.2.1) hG), desc, ?_⟩
  · simpa [getArtifacts, ← List.map_take, hd] using hall k hk0 (by simpa [getArtifacts] using hkl)
  · rw [← hu]
    simp [getArtifacts, hd]

/-- **A successful `Unpack` leaves the image unpacked.**  When no party but the snapshot store
answers Already-Exists (the apply options included), the client answers the same at every call,
and the manifest lists the layers `L`, not empty: if `Unpack` returns nil, the snapshot of every
prefix of `L` is committed, the label of the config blob for the snapshotter the name resolves to
holds the chain ID of `L`, and a later `IsUnpacked` answers true. -/
theorem unpack_unpacked (hL : manifest.layers ≠ []) (fuel : Nat) (name : String)
    (opts : List (UnpackConfig → Except Error UnpackConfig))
    (hopts : ∀ config, opts.foldlM (fun config o => o config) ⟨false, []⟩ = .ok config →
      ∀ o ∈ config.applyOpts, ∀ desc e, o desc = some e → IsAlreadyExists e = false)
    (w w' : World) (es : List Event)
    (h : Prog.exec (contractEnv outside) (unpack fromBytes dflt fuel name opts) w =
      (es, .pure none, w')) :
    (∀ k, 0 < k → k ≤ manifest.layers.length →
      w'.store.has (chainID fromBytes ((manifest.layers.take k).map (·.digest))) = true) ∧
    (∃ n, (∀ v, (Prog.exec (contractEnv outside) (resolveSnapshotterName dflt name) v).2.1 =
        .pure (.ok n)) ∧
      ∃ desc : Descriptor, (⟨.update ⟨desc.digest, [("containerd.io/gc.ref.snapshot." ++ n,
        chainID fromBytes (manifest.layers.map (·.digest)))]⟩
        ["labels.containerd.io/gc.ref.snapshot." ++ n], none⟩ : Event) ∈ es) ∧
    (Prog.exec (contractEnv outside) (isUnpacked fromBytes dflt name) w').2.1 = .pure (.ok true) := by
  obtain ⟨es₁, w₁, h₁, rfl, hes⟩ := exec_unpack_eq_none h
  obtain ⟨hpre, n, hres, hg, desc, hev⟩ :=
    unpackInLease_unpacked fromBytes dflt hman hst hn hopts h₁
  refine ⟨hpre, ⟨n, hres, desc, hes _ hev⟩, isUnpacked_of_committed fromBytes dflt hman (hg _) ?_⟩
  simpa using hpre _ (List.length_pos.2 hL) le_rfl

end Unpack

/-- The parties of an image whose manifest is `manifest`; every other party answers its
default. -/
def imageOutside (manifest : Manifest) : Nat → (q : Query) → Answer q
  | _, .manifest => .ok manifest
  | _, _ => default

theorem imageOutside_neverExists (manifest : Manifest) :
    (contractEnv (imageOutside manifest)).NeverExists := by
  intro w q e hq he
  rw [contractEnv_answer_other q hq] at he
  cases q <;> cases he

end AttributesClient
