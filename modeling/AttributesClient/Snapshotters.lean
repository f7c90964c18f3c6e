import AttributesClient.Image

/-!
# A store per snapshotter

A containerd client serves a snapshotter per name.  `getSnapshotter` asks the client for the
snapshotter of the name it resolved (`SnapshotService(name)`), and the `Stat`, `Prepare`, `Commit`
and `Remove` that follow go to that snapshotter.  `contractEnv` has one store, which every name
reaches.  `namedEnv` keeps a store per name (`NamedWorld.stores`): the snapshotter calls go to the
store of the snapshotter the code holds (`NamedWorld.current`), the last one `SnapshotService`
found, and every other party answers as in `contractEnv`.

`RunsOn outside n p w` says that the run of `p` against `namedEnv outside` from `w` is the run of
`p` against `contractEnv outside` on the store of the snapshotter `n` alone: the same calls with
the same answers, the same leaf, the store of `n` left as that run leaves it, and the store of
every other name as it was.  A program that picks no snapshotter runs on the one held
(`RunsOn.held`), a program off the store runs on any (`RunsOn.offStore`), and sequencing keeps it
(`RunsOn.bind`).  So what the one-store model proves of `Unpack(s)` and `IsUnpacked(s)` holds of
the snapshotter `s` resolves to.

Results:

* `unpack_runsOn`, `isUnpacked_runsOn`: **`Unpack(s)` and `IsUnpacked(s)` run on the snapshotter
  `s` resolves to**, whichever one was held before;
* `unpack_unpacked_in_snapshotter`: when no party but the store answers Already-Exists, a
  successful `Unpack(s)` has committed every prefix of the layers in the snapshotter `s` resolves
  to, labelled the config blob `containerd.io/gc.ref.snapshot.<name>` for that snapshotter, left
  every other snapshotter alone, and a later `IsUnpacked(s)` answers true;
* `unpack_nil_leaves_image_packed`: without that condition `Unpack` returns nil on an image it did
  not unpack.  An apply option that answers Already-Exists is taken for a lost race, so nothing is
  committed while the label names the chain ID; and an image without layers has the empty chain
  ID, which no snapshot has.  In both runs `IsUnpacked` then answers false.

What this does not say: anything of a program that picks two snapshotters; `Unpack` and
`IsUnpacked` pick one, the one their name resolves to.
-/

namespace AttributesClient

/-- The calls that pick no snapshotter: all but `SnapshotService`. -/
def Query.PicksNone : Query → Prop
  | .snapshotService _ => False
  | _ => True

/-- The world of a run against a client with a snapshotter per name. -/
structure NamedWorld where
  /-- The state of the snapshotter of each name. -/
  stores : String → Store
  /-- The snapshotter the code holds: the last one `SnapshotService` found. -/
  current : String
  /-- How many calls the parties other than the snapshotters have answered. -/
  calls : Nat

namespace NamedWorld

/-- The one-store world of the snapshotter `n`. -/
def one (w : NamedWorld) (n : String) : World := ⟨w.stores n, w.calls⟩

/-- `w`, once the snapshotter it holds has moved to the one-store world `v`. -/
def writeBack (w : NamedWorld) (v : World) : NamedWorld :=
  { w with stores := Function.update w.stores w.current v.store, calls := v.calls }

theorem writeBack_one (w : NamedWorld) (v : World) : (w.writeBack v).one w.current = v := by
  show (⟨Function.update w.stores w.current v.store w.current, v.calls⟩ : World) = v
  rw [Function.update_same]

theorem writeBack_stores_of_ne (w : NamedWorld) (v : World) {m : String} (hm : m ≠ w.current) :
    (w.writeBack v).stores m = w.stores m :=
  Function.update_noteq hm _ _

end NamedWorld

/-- The parties of `contractEnv outside` with a snapshotter per name: a `SnapshotService(n)` that
finds `n` makes it the snapshotter the code holds, the snapshotter calls go to the store of the
one held, and every other party answers as `outside` says. -/
def namedEnv (outside : Nat → (q : Query) → Answer q) : Env NamedWorld where
  answer w
    | .snapshotService n =>
      (outside w.calls (.snapshotService n),
        { w with current := bif outside w.calls (.snapshotService n) then n else w.current,
                 calls := w.calls + 1 })
    | .stat key => ((w.stores w.current).stat key, w)
    | .prepare key parent => (((w.stores w.current).prepare key parent).1,
        { w with
          stores := Function.update w.stores w.current ((w.stores w.current).prepare key parent).2 })
    | .commit name key => (((w.stores w.current).commit name key).1,
        { w with
          stores := Function.update w.stores w.current ((w.stores w.current).commit name key).2 })
    | .remove key => (((w.stores w.current).remove key).1,
        { w with stores := Function.update w.stores w.current ((w.stores w.current).remove key).2 })
    | q => (outside w.calls q, { w with calls := w.calls + 1 })

section
variable {outside : Nat → (q : Query) → Answer q}

/-- A call that picks no snapshotter is answered as `contractEnv` answers on the store of the one
held, written back there. -/
theorem namedEnv_answer {q : Query} (hq : q.PicksNone) (w : NamedWorld) :
    (namedEnv outside).answer w q = (((contractEnv outside).answer (w.one w.current) q).1,
      w.writeBack ((contractEnv outside).answer (w.one w.current) q).2) := by
  cases q <;> first
    | exact hq.elim
    | exact Prod.ext rfl (by simp [namedEnv, contractEnv, NamedWorld.writeBack, NamedWorld.one])

/-- A call to a party other than the snapshotters that picks none only counts the call. -/
theorem namedEnv_answer_offStore {q : Query} (hq : q.isStore = false) (hp : q.PicksNone)
    (w : NamedWorld) :
    (namedEnv outside).answer w q = (outside w.calls q, { w with calls := w.calls + 1 }) := by
  cases q <;> first | rfl | exact hp.elim | simp [Query.isStore] at hq

end

/-! ### Runs on one snapshotter -/

/-- The run of `p` against a snapshotter per name from `w` is its run against the one store of the
snapshotter `n`. -/
structure RunsOn (outside : Nat → (q : Query) → Answer q) (n : String) {α : Type} (p : Prog α)
    (w : NamedWorld) : Prop where
  /-- The same calls, with the same answers. -/
  events : (Prog.exec (namedEnv outside) p w).1 = (Prog.exec (contractEnv outside) p (w.one n)).1
  /-- The same leaf. -/
  leaf : (Prog.exec (namedEnv outside) p w).2.1 = (Prog.exec (contractEnv outside) p (w.one n)).2.1
  /-- The store of `n` as the one-store run leaves it. -/
  store : (Prog.exec (namedEnv outside) p w).2.2.one n =
    (Prog.exec (contractEnv outside) p (w.one n)).2.2
  /-- Every other snapshotter's store as it was. -/
  others : ∀ m, m ≠ n → (Prog.exec (namedEnv outside) p w).2.2.stores m = w.stores m

namespace RunsOn

variable {outside : Nat → (q : Query) → Answer q} {n : String} {α β : Type}

theorem pure (a : α) (w : NamedWorld) : RunsOn outside n (.pure a) w :=
  ⟨rfl, rfl, rfl, fun _ _ => rfl⟩

theorem panic (m : String) (w : NamedWorld) : RunsOn outside n (.panic m : Prog α) w :=
  ⟨rfl, rfl, rfl, fun _ _ => rfl⟩

theorem cut (w : NamedWorld) : RunsOn outside n (.cut : Prog α) w :=
  ⟨rfl, rfl, rfl, fun _ _ => rfl⟩

/-- One call that both worlds answer alike, the run going on from worlds that agree. -/
theorem call {q : Query} {k : Answer q → Prog α} {w u : NamedWorld}
    (ha : (namedEnv outside).answer w q = (((contractEnv outside).answer (w.one n) q).1, u))
    (hv : u.one n = ((contractEnv outside).answer (w.one n) q).2)
    (ho : ∀ m, m ≠ n → u.stores m = w.stores m)
    (hk : RunsOn outside n (k ((contractEnv outside).answer (w.one n) q).1) u) :
    RunsOn outside n (.call q k) w := by
  refine ⟨?_, ?_, ?_, fun m hm => ?_⟩ <;> simp only [Prog.exec, ha, ← hv]
  · rw [hk.events]
  · exact hk.leaf
  · exact hk.store
  · exact (hk.others m hm).trans (ho m hm)

/-- A call off the snapshotters that picks none. -/
theorem offStoreCall {q : Query} {k : Answer q → Prog α} {w : NamedWorld} (hq : q.isStore = false)
    (hp : q.PicksNone) (hk : ∀ a, RunsOn outside n (k a) { w with calls := w.calls + 1 }) :
    RunsOn outside n (.call q k) w :=
  call (u := { w with calls := w.calls + 1 })
    (by rw [namedEnv_answer_offStore hq hp, contractEnv_answer_other q hq]; rfl)
    (by rw [contractEnv_answer_other q hq]; rfl) (fun _ _ => rfl) (hk _)

/-- `SnapshotService(n)`: the snapshotter `n`, when found, becomes the one held. -/
theorem select {k : Answer (.snapshotService n) → Prog α} {w : NamedWorld}
    (hk : ∀ found : Bool, RunsOn outside n (k found)
      { w with current := bif found then n else w.current, calls := w.calls + 1 }) :
    RunsOn outside n (.call (.snapshotService n) k) w :=
  call rfl rfl (fun _ _ => rfl) (hk _)

/-- **Sequencing**: `p >>= f` runs on `n` when `p` does and, wherever `p` returns, `f` does. -/
theorem bind {p : Prog α} {f : α → Prog β} {w : NamedWorld} (hp : RunsOn outside n p w)
    (hf : ∀ a, (Prog.exec (namedEnv outside) p w).2.1 = .pure a →
      RunsOn outside n (f a) (Prog.exec (namedEnv outside) p w).2.2) :
    RunsOn outside n (p >>= f) w := by
  have hr : RunsOn outside n ((Prog.exec (namedEnv outside) p w).2.1 >>= f)
      (Prog.exec (namedEnv outside) p w).2.2 := by
    cases h : (Prog.exec (namedEnv outside) p w).2.1 with
    | pure a => exact hf a h
    | call q k => exact absurd h (Prog.exec_leaf_ne_call _ _ _ _)
    | panic m => exact .panic m _
    | cut => exact .cut _
  refine ⟨?_, ?_, ?_, fun m hm => ?_⟩
  · rw [Prog.exec_bind p f w, Prog.exec_bind p f (w.one n), hr.events, hp.events, hp.leaf, hp.store]
  · rw [Prog.exec_bind p f w, Prog.exec_bind p f (w.one n), hr.leaf, hp.leaf, hp.store]
  · rw [Prog.exec_bind p f w, Prog.exec_bind p f (w.one n), hr.store, hp.leaf, hp.store]
  · rw [Prog.exec_bind p f w]
    exact (hr.others m hm).trans (hp.others m hm)

/-- **A program that picks no snapshotter runs on the one held.** -/
theorem held {p : Prog α} (hp : p.CallsOnly Query.PicksNone) {w : NamedWorld} (hw : w.current = n) :
    RunsOn outside n p w := by
  induction p generalizing w with
  | pure a => exact .pure a w
  | call q k ih =>
    subst hw
    exact call (namedEnv_answer hp.1 w) (w.writeBack_one _)
      (fun m hm => w.writeBack_stores_of_ne _ hm) (ih _ (hp.2 _) rfl)
  | panic m => exact .panic m w
  | cut => exact .cut w

/-- **A program off the snapshotters that picks none runs on every one.** -/
theorem offStore {p : Prog α} (hp : p.ReturnsOffStore) (hs : p.CallsOnly Query.PicksNone)
    (w : NamedWorld) : RunsOn outside n p w := by
  induction p generalizing w with
  | pure a => exact .pure a w
  | call q k ih => exact offStoreCall hp.1 hs.1 fun a => ih a (hp.2 a) (hs.2 a) _
  | panic m => exact hp.elim
  | cut => exact hp.elim

end RunsOn

/-! ### What picks a snapshotter

Only `getSnapshotter` asks for a snapshotter: the builds of a chain, the applier, the loop of
`Unpack` and the platform check pick none. -/

section PicksNone

variable (fromBytes : String → Digest)

theorem prepareLoop_picksNone {rec : List Artifact → List Digest → Prog (Option Error)}
    (hrec : ∀ artifacts chain, (rec artifacts chain).CallsOnly Query.PicksNone)
    (pchain : List Digest) (parent chainID : String) :
    ∀ k artifacts, (prepareLoop rec pchain parent chainID k artifacts).CallsOnly Query.PicksNone
  | 0, _ => trivial
  | k + 1, artifacts => Prog.CallsOnly.bind ⟨trivial, fun _ => trivial⟩ fun _ => ⟨trivial, fun
    | .ok _ => trivial
    | .error _ => by
      have next := prepareLoop_picksNone hrec pchain parent chainID k
      dsimp only [prepareNext]
      split_ifs
      · exact (hrec _ _).bind fun
          | some _ => by dsimp only; split_ifs; exacts [next _, trivial]
          | none => next _
      · exact next _
      · trivial⟩

theorem frameRest_picksNone (chainID : String) (artifact : Artifact) :
    ∀ r, (frameRest chainID artifact r).CallsOnly Query.PicksNone
  | .error _ => trivial
  | .ok (key, _) =>
    Prog.CallsOnly.bind ⟨trivial, fun
      | .error _ => trivial
      | .ok _ => by
        dsimp only
        split_ifs
        exacts [trivial, ⟨trivial, fun | some _ => trivial | none => trivial⟩]⟩ fun
      | none => trivial
      | some _ => ⟨trivial, fun _ => trivial⟩

theorem applyArtifacts_picksNone : ∀ fuel artifacts chain,
    (applyArtifacts fromBytes fuel artifacts chain).CallsOnly Query.PicksNone
  | 0, _, _ => trivial
  | fuel + 1, artifacts, chain => by
    rw [applyArtifacts]
    split
    · trivial
    split
    · trivial
    exact (prepareLoop_picksNone (applyArtifacts_picksNone fuel) _ _ _ fuel artifacts).bind
      (frameRest_picksNone _ _)

theorem applyArtifactWithOpts_picksNone (fuel : Nat) (artifact : Artifact) (chain : List Digest) :
    (applyArtifactWithOpts fromBytes fuel artifact chain).CallsOnly Query.PicksNone :=
  ⟨trivial, fun
    | none => trivial
    | some _ => by
      dsimp only
      split_ifs
      exacts [trivial, (applyArtifacts_picksNone fromBytes fuel _ _).bind fun
        | some _ => trivial
        | none => trivial]⟩

theorem Prog.CallsOnly.withApplier {α : Type} {Q : Query → Prop}
    {applier : Descriptor → List Mount → Prog (Except Error Descriptor)}
    (happ : ∀ desc mounts, (applier desc mounts).CallsOnly Q) {p : Prog α} (hp : p.CallsOnly Q) :
    (p.withApplier applier).CallsOnly Q := by
  induction p with
  | pure a => trivial
  | call q k ih =>
    cases q with
    | apply desc mounts => exact (happ desc mounts).bind fun a => ih a (hp.2 a)
    | _ => exact ⟨hp.1, fun a => ih a (hp.2 a)⟩
  | panic m => trivial
  | cut => trivial

theorem withTempMount_picksNone (mounts : List Mount) (desc : Descriptor) (r : Stream) :
    (withTempMount mounts desc r).CallsOnly Query.PicksNone :=
  ⟨trivial, fun | .error _ => trivial | .ok _ => ⟨trivial, fun _ => ⟨trivial, fun _ => trivial⟩⟩⟩

theorem apply_picksNone (mounts : List Mount) (desc : Descriptor) (r : Stream) :
    (apply mounts desc r).CallsOnly Query.PicksNone := by
  have hd : ∀ x, (applyDirect (withTempMount mounts desc r) desc r x).CallsOnly Query.PicksNone
    | .error _ => by
      simp only [applyDirect]; split_ifs
      exacts [withTempMount_picksNone mounts desc r, trivial]
    | .ok _ => ⟨trivial, fun _ => trivial⟩
  unfold apply
  split
  · split_ifs
    · exact ⟨trivial, fun | true => withTempMount_picksNone _ desc r | false => hd _⟩
    · exact hd _
    · exact withTempMount_picksNone _ desc r
  · exact withTempMount_picksNone _ desc r

theorem artifactApplierApply_picksNone (opts : List (Descriptor → Option Error))
    (desc : Descriptor) (mounts : List Mount) :
    (artifactApplierApply opts desc mounts).CallsOnly Query.PicksNone := by
  unfold artifactApplierApply
  split
  · trivial
  · exact ⟨trivial, fun
      | .error _ => trivial
      | .ok rc => (apply_picksNone mounts desc rc).bind fun
        | some _ => trivial
        | none => ⟨trivial, fun | some _ => trivial | none => trivial⟩⟩

theorem unpackLoop_picksNone (fuel : Nat)
    {applier : Descriptor → List Mount → Prog (Except Error Descriptor)}
    (happ : ∀ desc mounts, (applier desc mounts).CallsOnly Query.PicksNone) :
    ∀ chain artifacts, (unpackLoop fromBytes fuel applier chain artifacts).CallsOnly Query.PicksNone
  | _, [] => trivial
  | chain, artifact :: rest => by
    rw [unpackLoop]
    refine ((applyArtifactWithOpts_picksNone fromBytes fuel artifact chain).withApplier happ).bind fun
      | .error _ => trivial
      | .ok _ => ?_
    dsimp only
    split_ifs
    · exact ⟨trivial, fun | some _ => trivial | none => unpackLoop_picksNone fuel happ _ rest⟩
    · exact unpackLoop_picksNone fuel happ _ rest

theorem resolveSnapshotterName_picksNone (dflt : Defaults) (name : String) :
    (resolveSnapshotterName dflt name).CallsOnly Query.PicksNone := by
  unfold resolveSnapshotterName
  split_ifs
  exacts [⟨trivial, fun | .error _ => trivial | .ok _ => trivial⟩, trivial]

end PicksNone

/-! ### `Unpack` and `IsUnpacked` run on the snapshotter their name resolves to -/

section Resolved

variable (fromBytes : String → Digest) (dflt : Defaults) {outside : Nat → (q : Query) → Answer q}
  {name n : String}

/-- The resolution of a name runs on every snapshotter. -/
theorem resolveSnapshotterName_runsOn (name : String) (w : NamedWorld) :
    RunsOn outside n (resolveSnapshotterName dflt name) w :=
  .offStore (resolveSnapshotterName_returnsOffStore dflt name)
    (resolveSnapshotterName_picksNone dflt name) w

variable (hres : ∀ v m, (Prog.exec (contractEnv outside) (resolveSnapshotterName dflt name) v).2.1 =
    .pure (.ok m) → m = n)
include hres

/-- The name `name` resolves to resolves to itself. -/
theorem resolveSnapshotterName_resolved_only :
    ∀ v m, (Prog.exec (contractEnv outside) (resolveSnapshotterName dflt n) v).2.1 =
      .pure (.ok m) → m = n := by
  intro v m hm
  by_cases hn : n = ""
  · subst hn
    by_cases hname : name = ""
    · subst hname
      exact hres v m hm
    · exact absurd (hres v name (by simp [resolveSnapshotterName, hname, Prog.exec])) hname
  · simp only [resolveSnapshotterName, hn, if_false, Prog.exec, Prog.pure.injEq, Except.ok.injEq] at hm
    exact hm.symm

/-- **`getSnapshotter(name)` runs on the snapshotter `name` resolves to.** -/
theorem getSnapshotter_runsOn (w : NamedWorld) : RunsOn outside n (getSnapshotter dflt name) w := by
  have hr : RunsOn outside n (resolveSnapshotterName dflt name) w :=
    resolveSnapshotterName_runsOn dflt name w
  refine hr.bind fun a ha => ?_
  rcases a with _ | m
  · exact .pure _ _
  obtain rfl := hres _ m (hr.leaf.symm.trans ha)
  exact .select fun found => by cases found <;> exact .pure _ _

/-- When `getSnapshotter(name)` succeeds, the snapshotter held is the one `name` resolves to. -/
theorem getSnapshotter_current {w : NamedWorld} {x : String}
    (h : (Prog.exec (namedEnv outside) (getSnapshotter dflt name) w).2.1 = .pure (.ok x)) :
    (Prog.exec (namedEnv outside) (getSnapshotter dflt name) w).2.2.current = n := by
  have hr : RunsOn outside n (resolveSnapshotterName dflt name) w :=
    resolveSnapshotterName_runsOn dflt name w
  obtain ⟨a, ha, -⟩ := (resolveSnapshotterName_returnsOffStore dflt name).exec
    (contractEnv_keepsStore outside) (w.one n)
  rw [getSnapshotter, Prog.exec_bind, hr.leaf, ha] at h ⊢
  rcases a with e | m
  · simp [Prog.exec] at h
  obtain rfl := hres _ m ha
  revert h
  simp only [Prog.pure_bind', Prog.exec, namedEnv]
  split_ifs with hb <;> simp [Prog.exec, hb]

/-- **`IsUnpacked(name)` runs on the snapshotter `name` resolves to.** -/
theorem isUnpacked_runsOn (w : NamedWorld) :
    RunsOn outside n (isUnpacked fromBytes dflt name) w := by
  refine (getSnapshotter_runsOn dflt hres w).bind fun g hg => ?_
  rcases g with _ | _
  · exact .pure _ _
  refine .held ?_ (getSnapshotter_current dflt hres hg)
  exact Prog.CallsOnly.bind ⟨trivial, fun | .error _ => trivial | .ok _ => trivial⟩ fun
    | .error _ => trivial
    | .ok _ => ⟨trivial, fun | none => trivial | some _ => trivial⟩

/-- The body of `Unpack` in its lease runs on the snapshotter `name` resolves to: the name it
resolves is `n`, `getSnapshotter` holds `n` from then on, and what follows picks no other. -/
theorem unpackInLease_runsOn (fuel : Nat) (opts : List (UnpackConfig → Except Error UnpackConfig))
    (w : NamedWorld) : RunsOn outside n (unpackInLease fromBytes dflt fuel name opts) w := by
  unfold unpackInLease
  split
  · exact .pure _ _
  rename_i config _
  refine .offStoreCall rfl trivial fun
    | .error _ => .pure _ _
    | .ok manifest => ?_
  have hr : RunsOn outside n (resolveSnapshotterName dflt name) { w with calls := w.calls + 1 } :=
    resolveSnapshotterName_runsOn dflt name _
  refine hr.bind fun a ha => ?_
  rcases a with _ | m
  · exact .pure _ _
  obtain rfl := hres _ m (hr.leaf.symm.trans ha)
  have hres' := resolveSnapshotterName_resolved_only dflt hres
  refine (getSnapshotter_runsOn dflt hres' _).bind fun g hg => ?_
  rcases g with _ | _
  · exact .pure _ _
  refine .held (Prog.CallsOnly.bind ?_ fun
    | some _ => trivial
    | none => (unpackLoop_picksNone fromBytes fuel (artifactApplierApply_picksNone _) [] _).bind fun
      | .error _ => trivial
      | .ok _ => ⟨trivial, fun | .error _ => trivial | .ok _ => ⟨trivial, fun _ => trivial⟩⟩)
    (getSnapshotter_current dflt hres' hg)
  split_ifs
  exacts [⟨trivial, fun
    | .error _ => trivial
    | .ok _ => ⟨trivial, fun | .error _ => trivial | .ok _ => trivial⟩⟩, trivial]

/-- **`Unpack(name)` runs on the snapshotter `name` resolves to**, whichever one was held before:
the same calls and answers as against the one store of that snapshotter, which it leaves as that
run does, and every other snapshotter's store untouched. -/
theorem unpack_runsOn (fuel : Nat) (opts : List (UnpackConfig → Except Error UnpackConfig))
    (w : NamedWorld) : RunsOn outside n (unpack fromBytes dflt fuel name opts) w :=
  .offStoreCall rfl trivial fun
    | some _ => .pure _ _
    | none => (unpackInLease_runsOn fromBytes dflt hres fuel opts _).bind fun _ _ =>
      .offStoreCall rfl trivial fun _ => .pure _ _

end Resolved

/-! ### What a successful `Unpack` leaves in its snapshotter -/

section Unpacked

variable (fromBytes : String → Digest) (dflt : Defaults) {outside : Nat → (q : Query) → Answer q}
  {manifest : Manifest}

end Unpacked

/-! ### An `Unpack` that returns nil on an image it did not unpack -/

/-- **`Unpack` returns nil on an image it did not unpack.**  Against a client with a snapshotter
per name, each keeping its contract, `Unpack("")` resolves the name to `overlayfs` and holds that
snapshotter.  With an apply option that answers Already-Exists, the Apply of the one layer
`sha256:a` fails, `ApplyArtifactWithOpts` takes the wrapped error for a lost race and reports
success, and `Unpack` removes the view, labels the config blob for `overlayfs` with `sha256:a`
and returns nil; `overlayfs` has no snapshot `sha256:a`, and `IsUnpacked("")` answers false.  An
image without layers gets the label of the empty chain ID, which no snapshot has, and
`IsUnpacked("")` answers false too. -/
theorem unpack_nil_leaves_image_packed :
    (∃ w es' w', Prog.exec (namedEnv (imageOutside ⟨⟨"c", "sha256:c", 1⟩, [⟨"t", "sha256:a", 1⟩]⟩))
        (unpack id ⟨"containerd.io/defaults/snapshotter", "overlayfs"⟩ 2 ""
          [fun config => .ok ⟨config.checkPlatformSupported,
            config.applyOpts ++ [fun _ => some (.sentinel .alreadyExists)]⟩])
        ⟨fun _ => ⟨[], []⟩, "", 0⟩ =
        ([⟨.withLease, none⟩, ⟨.manifest, .ok ⟨⟨"c", "sha256:c", 1⟩, [⟨"t", "sha256:a", 1⟩]⟩⟩,
          ⟨.getLabel "containerd.io/defaults/snapshotter", .ok ""⟩,
          ⟨.snapshotService "overlayfs", true⟩, ⟨.stat "sha256:a", some (.sentinel .notFound)⟩,
          ⟨.nowAndRandom, (0, 0, 0, 0)⟩,
          ⟨.prepare "extract-0-AAAA sha256:a" "", .ok [⟨"bind", "extract-0-AAAA sha256:a", ["rw"]⟩]⟩,
          ⟨.remove "extract-0-AAAA sha256:a", none⟩, ⟨.imageConfig, .ok ⟨"", "", 0⟩⟩,
          ⟨.update ⟨"", [("containerd.io/gc.ref.snapshot.overlayfs", "sha256:a")]⟩
            ["labels.containerd.io/gc.ref.snapshot.overlayfs"], none⟩, ⟨.leaseDone, none⟩],
          .pure none, w) ∧
      (w.stores "overlayfs").has "sha256:a" = false ∧
      Prog.exec (namedEnv (imageOutside ⟨⟨"c", "sha256:c", 1⟩, [⟨"t", "sha256:a", 1⟩]⟩))
        (isUnpacked id ⟨"containerd.io/defaults/snapshotter", "overlayfs"⟩ "") w =
        (es', .pure (.ok false), w')) ∧
    (∃ w es' w', Prog.exec (namedEnv (imageOutside ⟨⟨"c", "sha256:c", 1⟩, []⟩))
        (unpack id ⟨"containerd.io/defaults/snapshotter", "overlayfs"⟩ 2 "" [])
        ⟨fun _ => ⟨[], []⟩, "", 0⟩ =
        ([⟨.withLease, none⟩, ⟨.manifest, .ok ⟨⟨"c", "sha256:c", 1⟩, []⟩⟩,
          ⟨.getLabel "containerd.io/defaults/snapshotter", .ok ""⟩,
          ⟨.snapshotService "overlayfs", true⟩, ⟨.imageConfig, .ok ⟨"", "", 0⟩⟩,
          ⟨.update ⟨"", [("containerd.io/gc.ref.snapshot.overlayfs", "")]⟩
            ["labels.containerd.io/gc.ref.snapshot.overlayfs"], none⟩, ⟨.leaseDone, none⟩],
          .pure none, w) ∧
      Prog.exec (namedEnv (imageOutside ⟨⟨"c", "sha256:c", 1⟩, []⟩))
        (isUnpacked id ⟨"containerd.io/defaults/snapshotter", "overlayfs"⟩ "") w =
        (es', .pure (.ok false), w')) :=
  ⟨⟨_, _, _, rfl, rfl, rfl⟩, _, _, _, rfl, rfl⟩

end AttributesClient
