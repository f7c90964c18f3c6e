import AttributesClient.Store

/-!
# Sequential builds against the contract store

What `applyArtifactsWithOpts` does, call by call, when it runs alone against the snapshot store
of the spec's §4.3 (`contractEnv`).  A frame of `applyArtifacts` is taken apart into its loop
(`exec_prepareLoop_of_canParent`, `exec_prepareLoop_of_missing`) and what follows the loop
(`exec_frameRest`); `exec_applyArtifacts_prefix` puts them together over the frames of the
recursion, from the first missing prefix of the layer list up to the whole list.

Results:

* `applyArtifactsWithOpts_builds_missing`: from a store holding exactly the first `m` prefixes
  of `L`, a build applies each later layer once and in order, commits each later prefix once
  and in order, and returns the chain ID of `L`; with nothing missing its only call is the Stat;
* `applyArtifactsWithOpts_success_without_snapshot`: an applier whose error is Already-Exists
  makes a build report success while nothing is committed;
* `applyArtifactsWithOpts_cancel_leaks_view`: when the caller's context is cancelled after the
  Prepare, the deferred Remove is refused and the prepared view outlives the build.
-/

namespace AttributesClient

/-! ### What a run did -/

/-- The descriptors the applier was called on, in order. -/
def applied (es : List Event) : List Descriptor :=
  es.filterMap fun
    | ⟨.apply desc _, _⟩ => some desc
    | _ => none

/-- The chain IDs of the Commits, in order. -/
def committedNames (es : List Event) : List String :=
  es.filterMap fun
    | ⟨.commit name _, _⟩ => some name
    | _ => none

@[simp] theorem applied_append (es es' : List Event) :
    applied (es ++ es') = applied es ++ applied es' := List.filterMap_append _ _ _

@[simp] theorem committedNames_append (es es' : List Event) :
    committedNames (es ++ es') = committedNames es ++ committedNames es' :=
  List.filterMap_append _ _ _

/-- The chain ID of the first `k` layers of `L`, `ChainID(L[:k])`. -/
def prefixID (fromBytes : String → Digest) (L : List Artifact) (k : Nat) : Digest :=
  chainID fromBytes ((L.map (·.blob.digest)).take k)

/-! ### One frame, step by step -/

section Steps

variable {outside : Nat → (q : Query) → Answer q}

/-- After the loop, on a fresh view: the one Apply, the one Commit, and the Remove when the
Commit finds the chain ID taken. -/
theorem exec_frameRest {s : Store} {i : Nat} {key parent cid : String} {artifact : Artifact}
    {ms : List Mount} {d : Descriptor}
    (hv : s.hasView key = false) (ha : outside i (.apply artifact.blob ms) = .ok d)
    (hd : d.digest = artifact.blob.digest) :
    ∃ es r s', Prog.exec (contractEnv outside) (frameRest cid artifact (.ok (key, ms)))
        ⟨{ s with views := (key, parent) :: s.views }, i⟩ = (es, .pure r, ⟨s', i + 1⟩) ∧
      r.all IsAlreadyExists ∧ applied es = [artifact.blob] ∧ committedNames es = [cid] ∧
      s'.views = s.views ∧ s'.has cid := by
  cases hc : s.has cid
  · refine ⟨[⟨.apply artifact.blob ms, .ok d⟩, ⟨.commit cid key, none⟩], none,
      ⟨(cid, parent) :: s.committed, s.views⟩, ?_, ?_⟩
    · simp [frameRest, applyAndCommit, Prog.exec, ha, hd, Store.commit_fresh_view hv hc, cleanup]
    · simp [applied, committedNames]
  · refine ⟨[⟨.apply artifact.blob ms, .ok d⟩, ⟨.commit cid key, some (.sentinel .alreadyExists)⟩,
      ⟨.remove key, none⟩], some (.wrap ("failed to commit snapshot " ++ key)
        (.sentinel .alreadyExists)), s, ?_, ?_⟩
    · simp [frameRest, applyAndCommit, Prog.exec, ha, hd, Store.commit_fresh_view_exists hc,
        cleanup, Store.remove_fresh_view hv]
    · simp [applied, committedNames, hc, IsAlreadyExists]

variable {rec : List Artifact → List Digest → Prog (Option Error)} {pchain : List Digest}
  {parent chainID : String} {n : Nat} {arts : List Artifact} {w : World}

/-- One turn of the loop: a draw of the clock, then a Prepare with the key it mints. -/
theorem exec_prepareLoop_succ :
    Prog.exec (contractEnv outside) (prepareLoop rec pchain parent chainID (n + 1) arts) w =
      let key := unpackKey (uniqueText (outside w.calls .nowAndRandom)) chainID
      let r := Prog.exec (contractEnv outside)
        (prepareNext (prepareLoop rec pchain parent chainID n) rec pchain arts key
          (w.store.prepare key parent).1) ⟨(w.store.prepare key parent).2, w.calls + 1⟩
      (⟨.nowAndRandom, outside w.calls .nowAndRandom⟩ :: ⟨.prepare key parent, (w.store.prepare key parent).1⟩ ::
        r.1, r.2) := rfl

/-- A turn whose Prepare is accepted ends the loop. -/
theorem exec_prepareLoop_of_canParent {s : Store} {i : Nat}
    (hv : s.hasView (unpackKey (uniqueText (outside i .nowAndRandom)) chainID) = false)
    (hp : s.canParent parent = true) :
    Prog.exec (contractEnv outside) (prepareLoop rec pchain parent chainID (n + 1) arts)
        ⟨s, i⟩ =
      ([⟨.nowAndRandom, outside i .nowAndRandom⟩, ⟨.prepare (unpackKey (uniqueText (outside i .nowAndRandom)) chainID) parent,
          .ok [⟨"bind", unpackKey (uniqueText (outside i .nowAndRandom)) chainID, ["rw"]⟩]⟩],
        .pure (.ok (unpackKey (uniqueText (outside i .nowAndRandom)) chainID,
          [⟨"bind", unpackKey (uniqueText (outside i .nowAndRandom)) chainID, ["rw"]⟩])),
        ⟨{ s with views := (unpackKey (uniqueText (outside i .nowAndRandom)) chainID, parent) :: s.views }, i + 1⟩) := by
  rw [exec_prepareLoop_succ]
  simp only [Store.prepare_of_fresh hv hp]
  rfl

/-- A turn whose parent is missing builds the ancestors, then takes the next turn with no
artifacts. -/
theorem exec_prepareLoop_of_missing {s : Store} {i : Nat}
    (hv : s.hasView (unpackKey (uniqueText (outside i .nowAndRandom)) chainID) = false)
    (hp : s.canParent parent = false) (h1 : 1 < arts.length) {es : List Event}
    {r : Option Error} {w' : World}
    (hrec : Prog.exec (contractEnv outside) (rec (arts.take (arts.length - 1)) pchain)
      ⟨s, i + 1⟩ = (es, .pure r, w'))
    (hr : r.all IsAlreadyExists) :
    Prog.exec (contractEnv outside) (prepareLoop rec pchain parent chainID (n + 1) arts)
        ⟨s, i⟩ =
      (⟨.nowAndRandom, outside i .nowAndRandom⟩ :: ⟨.prepare (unpackKey (uniqueText (outside i .nowAndRandom)) chainID) parent,
          .error (.sentinel .notFound)⟩ :: (es ++
          (Prog.exec (contractEnv outside) (prepareLoop rec pchain parent chainID n []) w').1),
        (Prog.exec (contractEnv outside) (prepareLoop rec pchain parent chainID n []) w').2) := by
  rw [exec_prepareLoop_succ]
  simp only [Store.prepare_of_missing hv hp, prepareNext, IsNotFound, Error.is_sentinel,
    h1, decide_True, Bool.and_true, beq_self_eq_true, ↓reduceIte]
  rw [Prog.exec_bind_of_pure hrec]
  rcases r with _ | e
  · rfl
  · simp only [Option.all_some] at hr
    simp only [hr, ↓reduceIte]

end Steps

/-! ### The frames of a build -/

/-- The store a sequential build of `L` starts from: no view is keyed by a key the clock can
mint, and the prefixes of `L` with a committed snapshot are exactly the first `m`. -/
structure Ready (fromBytes : String → Digest) (outside : Nat → (q : Query) → Answer q)
    (L : List Artifact) (m : Nat) (s : Store) : Prop where
  fresh : ∀ i c, s.hasView (unpackKey (uniqueText (outside i .nowAndRandom)) c) = false
  committed : ∀ i, 0 < i → i ≤ L.length → (s.has (prefixID fromBytes L i) = true ↔ i ≤ m)

theorem take_succ_dropLast {α : Type} {l : List α} {k : Nat} (hk : k < l.length) :
    (l.take (k + 1)).dropLast = l.take k := by
  rw [← List.take_concat_get' l k hk, List.dropLast_concat]

theorem getLast_take_succ {α : Type} {l : List α} {k : Nat} (hk : k < l.length)
    (h : l.take (k + 1) ≠ []) : (l.take (k + 1)).getLast h = l[k] := by
  simp [List.getLast_take, hk]

section Frames

variable {fromBytes : String → Digest} {outside : Nat → (q : Query) → Answer q}
  {L : List Artifact}

theorem frameOk_take {k : Nat} (hk : k < L.length) :
    FrameOk (L.take (k + 1)) ((L.map (·.blob.digest)).take (k + 1)) := by
  rw [← List.map_take]
  exact frameOk_map (List.ne_nil_of_length_pos (by simp; omega))

/-- A frame whose loop returned a fresh view: the frame's Apply and Commit follow. -/
theorem exec_applyArtifacts_of_loop {k f : Nat} (hk : k < L.length)
    (happ : ∀ i d ms, ∃ d', outside i (.apply d ms) = .ok d' ∧ d'.digest = d.digest) {w : World}
    {es : List Event} {key parent : String} {ms : List Mount} {s : Store} {i : Nat}
    (hloop : Prog.exec (contractEnv outside) (prepareLoop (applyArtifacts fromBytes f)
      ((L.map (·.blob.digest)).take k) (prefixID fromBytes L k) (prefixID fromBytes L (k + 1)) f
      (L.take (k + 1))) w = (es, .pure (.ok (key, ms)), ⟨{ s with views := (key, parent) :: s.views }, i⟩))
    (hv : s.hasView key = false) :
    ∃ es' r s', Prog.exec (contractEnv outside)
        (applyArtifacts fromBytes (f + 1) (L.take (k + 1)) ((L.map (·.blob.digest)).take (k + 1))) w =
        (es ++ es', .pure r, ⟨s', i + 1⟩) ∧
      r.all IsAlreadyExists ∧ applied es' = [L[k].blob] ∧
      committedNames es' = [prefixID fromBytes L (k + 1)] ∧
      s'.views = s.views ∧ s'.has (prefixID fromBytes L (k + 1)) := by
  have hkD : k < (L.map (·.blob.digest)).length := by simpa using hk
  obtain ⟨d, ha, hd⟩ := happ i L[k].blob ms
  obtain ⟨es', r, s', he, hrest⟩ :=
    @exec_frameRest outside s i key parent (prefixID fromBytes L (k + 1)) L[k] ms d hv ha hd
  refine ⟨es', r, s', ?_, hrest⟩
  rw [applyArtifacts_of_frameOk fromBytes (frameOk_take hk)]
  simp only [prefixID] at hloop he
  simp only [take_succ_dropLast hkD, getLast_take_succ hk]
  rw [Prog.exec_bind_of_pure hloop, he]

theorem take_succ_drop {α : Type} {l : List α} {k m : Nat} (hk : k < l.length) (hm : m ≤ k) :
    (l.take (k + 1)).drop m = (l.take k).drop m ++ [l[k]] := by
  rw [← List.take_concat_get' l k hk, List.drop_append_of_le_length (by simp; omega)]

/-- **The frames of a build**: from a store holding exactly the first `m` prefixes of `L`, the
frame on the first `k` layers, `m < k`, applies layers `m + 1, …, k` and commits their prefixes,
each once and in order; it returns nil or Already-Exists, leaves the views as it found them and
ends with the `k`-th prefix committed.  Frame `k` calls frame `k - 1` unless `k = m + 1`. -/
theorem exec_applyArtifacts_prefix (hH : ∀ s, fromBytes s ≠ "")
    (happ : ∀ i d ms, ∃ d', outside i (.apply d ms) = .ok d' ∧ d'.digest = d.digest)
    (hL : ∀ a ∈ L, a.blob.digest ≠ "") {m : Nat} {s : Store} (hs : Ready fromBytes outside L m s) :
    ∀ k, m + 1 ≤ k → k ≤ L.length → ∀ fuel, k - m + 1 ≤ fuel → ∀ i, ∃ es r w',
      Prog.exec (contractEnv outside)
        (applyArtifacts fromBytes fuel (L.take k) ((L.map (·.blob.digest)).take k)) ⟨s, i⟩ =
        (es, .pure r, w') ∧
      r.all IsAlreadyExists ∧ applied es = ((L.take k).drop m).map (·.blob) ∧
      committedNames es = (List.range' (m + 1) (k - m)).map (prefixID fromBytes L) ∧
      w'.store.views = s.views ∧ w'.store.has (prefixID fromBytes L k) := by
  refine Nat.le_induction ?base ?step
  case base =>
    intro hk fuel hfuel i
    obtain ⟨f, rfl⟩ : ∃ f, fuel = f + 2 := ⟨fuel - 2, by omega⟩
    have hp : s.canParent (prefixID fromBytes L m) = true := by
      rcases Nat.eq_zero_or_pos m with rfl | hm
      · rfl
      · simp [Store.canParent, (hs.committed m hm (by omega)).2 le_rfl]
    obtain ⟨es', r, s', he, hr, ha, hc, hv, hh⟩ := exec_applyArtifacts_of_loop (by omega) happ
      (exec_prepareLoop_of_canParent (hs.fresh i _) hp) (hs.fresh i _)
    refine ⟨_, r, _, he, hr, ?_, ?_, hv, hh⟩
    · simp only [applied] at ha ⊢
      simp [ha, take_succ_drop (show m < L.length by omega) le_rfl, Nat.min_le_left]
    · simp only [committedNames] at hc ⊢
      simp [hc]
  case step =>
    intro k hk ih hk' fuel hfuel i
    obtain ⟨f, rfl⟩ : ∃ f, fuel = f + 3 := ⟨fuel - 3, by omega⟩
    obtain ⟨es₁, r₁, w₁, he₁, hr₁, ha₁, hc₁, hv₁, hh₁⟩ := ih (by omega) (f + 2) (by omega) (i + 1)
    have hne : prefixID fromBytes L k ≠ "" :=
      chainID_ne_empty fromBytes hH (List.ne_nil_of_length_pos (by simp; omega))
        fun d hd => by
          obtain ⟨a, ha, rfl⟩ := List.mem_map.1 (List.mem_of_mem_take hd)
          exact hL a ha
    have hp : s.canParent (prefixID fromBytes L k) = false := by
      simp [Store.canParent, hne, (hs.committed k (by omega) (by omega)).not.2 (by omega)]
    have hrec : Prog.exec (contractEnv outside) (applyArtifacts fromBytes (f + 2)
        ((L.take (k + 1)).take ((L.take (k + 1)).length - 1)) ((L.map (·.blob.digest)).take k))
        ⟨s, i + 1⟩ = (es₁, .pure r₁, w₁) := by
      rw [List.take_take, List.length_take, show min (min (k + 1) L.length - 1) (k + 1) = k by
        omega]
      exact he₁
    obtain ⟨s₁, j⟩ := w₁
    have hv₁' : ∀ c, s₁.hasView (unpackKey (uniqueText (outside j .nowAndRandom)) c) = false := fun c => by
      rw [Store.hasView, show s₁.views = s.views from hv₁]
      exact hs.fresh j c
    obtain ⟨es', r, s', he, hr, ha, hc, hv, hh⟩ := exec_applyArtifacts_of_loop (by omega) happ
      ((exec_prepareLoop_of_missing (hs.fresh i _) hp (by simp; omega) hrec hr₁).trans
        (by rw [exec_prepareLoop_of_canParent (hv₁' _) (by simp [Store.canParent, hh₁])]))
      (hv₁' _)
    refine ⟨_, r, _, he, hr, ?_, ?_, hv.trans hv₁, hh⟩
    · simp only [applied] at ha ha₁ ⊢
      simp [ha, ha₁, take_succ_drop (show k < L.length by omega) (show m ≤ k by omega)]
    · rw [show k + 1 - m = k - m + 1 by omega, List.range'_concat]
      simp only [committedNames] at hc hc₁ ⊢
      simp [hc, hc₁, show m + 1 + (k - m) = k + 1 by omega]

theorem prefixID_length (fromBytes : String → Digest) (L : List Artifact) :
    prefixID fromBytes L L.length = chainID fromBytes (L.map (·.blob.digest)) := by
  simp [prefixID, List.take_of_length_le]

/-- **A sequential build does exactly the missing work.**  From a store whose committed
prefixes of `L` are exactly the first `m` and whose views are keyed by no key the clock can
mint, with an applier that succeeds and reports the declared digest, a hash that never gives the
empty text and layers with digests, `applyArtifactsWithOpts` with enough fuel calls the applier
once on each of the layers `m + 1, …, n`, in order and on no other, commits exactly the prefixes
`m + 1, …, n`, in order, and returns the chain ID of `L`.  When nothing is missing its only call
is the Stat. -/
theorem applyArtifactsWithOpts_builds_missing (hH : ∀ s, fromBytes s ≠ "")
    (happ : ∀ i d ms, ∃ d', outside i (.apply d ms) = .ok d' ∧ d'.digest = d.digest) (L : List Artifact)
    (hL : ∀ a ∈ L, a.blob.digest ≠ "") (hn : L ≠ []) (m : Nat) (hm : m ≤ L.length) (s : Store)
    (hs : Ready fromBytes outside L m s) (fuel : Nat) (hfuel : L.length < fuel) (i : Nat) :
    ∃ es w', Prog.exec (contractEnv outside) (applyArtifactsWithOpts fromBytes fuel L) ⟨s, i⟩ =
        (es, .pure (.ok (chainID fromBytes (L.map (·.blob.digest)))), w') ∧
      applied es = (L.drop m).map (·.blob) ∧
      committedNames es = (List.range' (m + 1) (L.length - m)).map (prefixID fromBytes L) ∧
      (m = L.length → es = [⟨.stat (chainID fromBytes (L.map (·.blob.digest))), none⟩]) := by
  have hpos : 0 < L.length := List.length_pos.2 hn
  have hst := hs.committed L.length hpos le_rfl
  rw [prefixID_length] at hst
  rcases Nat.lt_or_ge m L.length with hlt | hge
  · obtain ⟨es, r, w', he, hr, ha, hc, -, -⟩ :=
      exec_applyArtifacts_prefix hH happ hL hs L.length hlt le_rfl fuel (by omega) i
    rw [List.take_length, List.take_of_length_le (by simp)] at he
    have hs' : s.has (chainID fromBytes (L.map (·.blob.digest))) = false := by
      simpa [hlt] using hst.not.2 (by omega)
    refine ⟨⟨.stat (chainID fromBytes (L.map (·.blob.digest))), some (.sentinel .notFound)⟩ :: es,
      w', ?_, ?_, ?_, by omega⟩
    · simp only [applyArtifactsWithOpts, Prog.exec, contractEnv_stat, Store.stat, hs', IsNotFound,
        Bool.false_eq_true, ↓reduceIte, Error.is_sentinel, beq_self_eq_true, Bool.not_true]
      rw [Prog.exec_bind_of_pure he]
      rcases r with _ | e
      · simp [Prog.exec]
      · simp only [Option.all_some] at hr
        simp [hr, Prog.exec]
    · simpa [applied] using ha
    · simpa [committedNames] using hc
  · obtain rfl : m = L.length := by omega
    refine ⟨[⟨.stat (chainID fromBytes (L.map (·.blob.digest))), none⟩], ⟨s, i⟩, ?_, by simp [applied], by simp [committedNames],
      fun _ => rfl⟩
    simp [applyArtifactsWithOpts, Prog.exec, contractEnv, Store.stat, hst.2 le_rfl]

end Frames

/-- Three layers, for the sample runs below. -/
def sampleLayers : List Artifact :=
  [⟨⟨"t", "sha256:a", 1⟩⟩, ⟨⟨"t", "sha256:b", 1⟩⟩, ⟨⟨"t", "sha256:c", 1⟩⟩]

/-- The store in which the first `m` prefixes of `sampleLayers` are committed, under the hash
that prefixes its text with `h`. -/
def sampleStore (m : Nat) : Store :=
  ⟨(List.range' 1 m).map fun k => (prefixID (fun s => "h" ++ s) sampleLayers k, ""), []⟩

theorem sampleStore_ready {m : Nat} (hm : m ≤ 3) :
    Ready (fun s => "h" ++ s) quietOutside sampleLayers m (sampleStore m) := by
  refine ⟨fun _ _ => rfl, fun i h0 h3 => ?_⟩
  change i ≤ 3 at h3
  rcases m with _ | _ | _ | _ | m <;> rcases i with _ | _ | _ | _ | i
  all_goals first | omega | decide

/-- The build of three layers of which the first is committed builds the other two; of three
layers all committed, it builds nothing. -/
theorem applyArtifactsWithOpts_builds_missing_three :
    (∃ es w', Prog.exec (contractEnv quietOutside)
        (applyArtifactsWithOpts (fun s => "h" ++ s) 4 sampleLayers) ⟨sampleStore 1, 0⟩ =
        (es, .pure (.ok (chainID (fun s => "h" ++ s) (sampleLayers.map (·.blob.digest)))), w') ∧
      applied es = (sampleLayers.drop 1).map (·.blob) ∧
      committedNames es =
        (List.range' (1 + 1) (sampleLayers.length - 1)).map (prefixID (fun s => "h" ++ s) sampleLayers) ∧
      (1 = sampleLayers.length →
        es = [⟨.stat (chainID (fun s => "h" ++ s) (sampleLayers.map (·.blob.digest))), none⟩])) ∧
    (∃ es w', Prog.exec (contractEnv quietOutside)
        (applyArtifactsWithOpts (fun s => "h" ++ s) 4 sampleLayers) ⟨sampleStore 3, 0⟩ =
        (es, .pure (.ok (chainID (fun s => "h" ++ s) (sampleLayers.map (·.blob.digest)))), w') ∧
      applied es = (sampleLayers.drop 3).map (·.blob) ∧
      committedNames es =
        (List.range' (3 + 1) (sampleLayers.length - 3)).map (prefixID (fun s => "h" ++ s) sampleLayers) ∧
      (3 = sampleLayers.length →
        es = [⟨.stat (chainID (fun s => "h" ++ s) (sampleLayers.map (·.blob.digest))), none⟩])) := by
  have hH : ∀ s, (fun s => "h" ++ s) s ≠ "" := fun s h => by
    have h₀ : ("h" ++ s).length = 0 := by rw [show "h" ++ s = "" from h]; rfl
    have h₁ : "h".length = 1 := rfl
    rw [String.length_append] at h₀
    omega
  have happ : ∀ i d ms, ∃ d', quietOutside i (.apply d ms) = .ok d' ∧ d'.digest = d.digest :=
    fun _ d _ => ⟨d, rfl, rfl⟩
  have hL : ∀ a ∈ sampleLayers, a.blob.digest ≠ "" := by decide
  exact ⟨applyArtifactsWithOpts_builds_missing hH happ sampleLayers hL (List.cons_ne_nil _ _) 1
      (by decide) _ (sampleStore_ready (by decide)) 4 (by decide) 0,
    applyArtifactsWithOpts_builds_missing hH happ sampleLayers hL (List.cons_ne_nil _ _) 3
      (by decide) _ (sampleStore_ready (by decide)) 4 (by decide) 0⟩

/-! ### Failures the entry point reports as success -/

/-- As `quietOutside`, but the applier answers Already-Exists. -/
def refusingApplier : Nat → (q : Query) → Answer q
  | _, .apply _ _ => .error (.sentinel .alreadyExists)
  | _, _ => default

/-- **An error of the applier that is Already-Exists is taken for a lost race.**  The applier's
error is wrapped with `%w` (line 130), so `errdefs.IsAlreadyExists` still finds it at line 44:
against the contract store, a build whose only layer the applier refused returns the chain ID
as a success, and nothing is committed under it. -/
theorem applyArtifactsWithOpts_success_without_snapshot :
    ∃ es w, Prog.exec (contractEnv refusingApplier)
      (applyArtifactsWithOpts id 2 [⟨⟨"application/vnd.oci.image.layer.v1.tar", "sha256:a", 1⟩⟩])
      ⟨⟨[], []⟩, 0⟩ = (es, .pure (.ok "sha256:a"), w) ∧ w.store.has "sha256:a" = false :=
  ⟨_, _, rfl, by decide⟩

/-- **A cancelled context leaks the prepared view.**  The deferred cleanup (lines 116–126)
calls Remove with the caller's context; once that context is cancelled, after the Prepare, the
Apply fails and so does the Remove, whose error is only logged.  The store answers every call
made before the cancellation by its contract (`cancelAfter_remove_live`), and the build ends
with its view still in the store. -/
theorem applyArtifactsWithOpts_cancel_leaks_view :
    ∃ es w, Prog.exec ((contractEnv quietOutside).cancelAfter 3)
      (applyArtifactsWithOpts id 2 [⟨⟨"application/vnd.oci.image.layer.v1.tar", "sha256:a", 1⟩⟩])
      (⟨⟨[], []⟩, 0⟩, 0) =
      (es, .pure (.error (.wrap "failed to extract layer sha256:a" contextCanceled)), w) ∧
      w.1.store.views = [(unpackKey (uniqueText (0, 0, 0, 0)) "sha256:a", "")] :=
  ⟨_, _, rfl, by decide⟩

end AttributesClient
