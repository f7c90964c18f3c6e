import AttributesClient.Image

/-!
# `Unpack` commits only its image's chains

A frame of `applyArtifacts` commits the chain ID of a non-empty prefix of the chain it was asked
for, and nothing else.  `Unpack` asks, one layer at a time, for the chains of the prefixes of its
image's layers, and hands over an applier that never calls the store.  So, whatever every party
answers, a run of `Unpack` that read the manifest `m` commits only chain IDs of non-empty
prefixes of `m`'s layers: it never commits a snapshot under another name.

`CommitsWithin ds es` says that of the Commits among the events `es`.  `Prog.CommitsImage m p`
says it of every run of `p` whose manifest reads returned `m`; it is a stable property, for the
manifest `m`.

Results:

* `applyArtifactWithOpts_commitsWithin`: a build of one layer on `chain` commits only chain IDs
  of prefixes of `chain` with the layer on top;
* `unpackLoop_commitsImage`: so does the loop of `Unpack`, on the chain of the image's layers,
  and so does `Unpack` (`unpack_commitsImage`);
* `unpack_commits_only_image_chains`: **`Unpack` commits only its image's chains.**

What this does not say: which of those chains a run commits, or on which parent; and it speaks
of runs whose manifest reads all returned `m`.
-/

namespace AttributesClient

section

variable (fromBytes : String → Digest)

/-- Every Commit among the events `es` is of the chain ID of a non-empty prefix of `ds`. -/
def CommitsWithin (ds : List Digest) (es : List Event) : Prop :=
  ∀ cid key a, (⟨.commit cid key, a⟩ : Event) ∈ es →
    ∃ p, p ≠ [] ∧ p <+: ds ∧ cid = chainID fromBytes p

/-- Every run of `p` whose manifest reads returned `m` commits only chain IDs of non-empty
prefixes of `m`'s layers. -/
def Prog.CommitsImage {α : Type} (m : Manifest) (p : Prog α) : Prop :=
  ∀ es r, Prog.Runs p es r → (∀ m', (⟨.manifest, .ok m'⟩ : Event) ∈ es → m' = m) →
    CommitsWithin fromBytes (m.layers.map (·.digest)) es

end

namespace CommitsWithin

variable {fromBytes : String → Digest} {ds : List Digest} {es es' : List Event}

theorem nil : CommitsWithin fromBytes ds [] :=
  fun _ _ _ h => absurd h (List.not_mem_nil _)

theorem append (h : CommitsWithin fromBytes ds es) (h' : CommitsWithin fromBytes ds es') :
    CommitsWithin fromBytes ds (es ++ es') :=
  fun cid key a hm => (List.mem_append.1 hm).elim (h cid key a) (h' cid key a)

theorem cons {ev : Event} (hev : ∀ cid key, ev.1 ≠ .commit cid key)
    (h : CommitsWithin fromBytes ds es) : CommitsWithin fromBytes ds (ev :: es) := by
  intro cid key a hm
  rcases List.mem_cons.1 hm with rfl | hm
  exacts [absurd rfl (hev cid key), h cid key a hm]

theorem mono {ds' : List Digest} (hds : ds <+: ds') (h : CommitsWithin fromBytes ds es) :
    CommitsWithin fromBytes ds' es :=
  fun cid key a hm => (h cid key a hm).imp fun _ ⟨hp, hpre, hn⟩ => ⟨hp, hpre.trans hds, hn⟩

/-- Only the calls to the store matter. -/
theorem filter_store :
    CommitsWithin fromBytes ds (es.filter (·.1.isStore)) ↔ CommitsWithin fromBytes ds es :=
  ⟨fun h cid key a hm => h cid key a (List.mem_filter.2 ⟨hm, rfl⟩),
    fun h cid key a hm => h cid key a (List.mem_filter.1 hm).1⟩

theorem of_aligned (h : CommitsAligned fromBytes ds es) : CommitsWithin fromBytes ds es := by
  intro cid key a hm
  obtain ⟨pre, post, rfl⟩ := List.append_of_mem hm
  obtain ⟨_, p, _, _, _, _, hp, hpre, hn, _⟩ := h pre cid key a post rfl
  exact ⟨p, hp, hpre, hn⟩

end CommitsWithin

section

variable (fromBytes : String → Digest)

/-- A build of one layer on `chain` commits only chain IDs of prefixes of `chain` with the layer
on top: every Commit of its frame is aligned with that chain. -/
theorem applyArtifactWithOpts_commitsWithin (fuel : Nat) (artifact : Artifact)
    (chain : List Digest) {es : List Event} {r : Prog (Except Error Bool)}
    (h : Prog.Runs (applyArtifactWithOpts fromBytes fuel artifact chain) es r) :
    CommitsWithin fromBytes (chain ++ [artifact.blob.digest]) es := by
  have frame := fun {es} {r} => @applyArtifacts_commitsAligned fromBytes
    (chain ++ [artifact.blob.digest]) fuel [artifact] _ (frameOk_single artifact chain)
    (List.prefix_refl _) es r
  rcases Prog.runs_call.1 h with ⟨rfl, -⟩ | ⟨a, es, rfl, hk⟩
  · exact .nil
  refine .cons (fun _ _ => nofun) ?_
  rcases a with _ | err
  · exact (Prog.runs_pure.1 hk).1 ▸ .nil
  dsimp only at hk
  split_ifs at hk
  · exact (Prog.runs_pure.1 hk).1 ▸ .nil
  rcases hk.of_bind with ⟨p', hp, -⟩ | ⟨x, es₁, es₂, rfl, h₁, h₂⟩
  · exact .of_aligned (frame hp)
  · obtain rfl : es₂ = [] := by rcases x with _ | e <;> exact (Prog.runs_pure.1 h₂).1
    rw [List.append_nil]
    exact .of_aligned (frame h₁)

/-- Committing only the chains of `m` is a stable property. -/
theorem Prog.stable_commitsImage (m : Manifest) :
    Prog.Stable (fun _ p => p.CommitsImage fromBytes m) where
  pure _ := fun _ _ h _ => (Prog.runs_pure.1 h).1 ▸ .nil
  bind hp hf := fun es r h hm => by
    obtain ⟨es₁, es₂, p', rfl, h₁, ⟨rfl, -⟩ | ⟨a, rfl, h₂⟩⟩ := h.split_bind
    · rw [List.append_nil] at hm ⊢
      exact hp _ _ h₁ hm
    · exact (hp _ _ h₁ fun m' h' => hm m' (List.mem_append_left _ h')).append
        (hf a _ _ h₂ fun m' h' => hm m' (List.mem_append_right _ h'))
  call hq hk := fun es r h hm => by
    rcases Prog.runs_call.1 h with ⟨rfl, -⟩ | ⟨a, es', rfl, h'⟩
    · exact .nil
    · refine .cons (by rintro _ _ rfl; simp [Query.isStore] at hq) ?_
      exact hk a _ _ h' fun m' h'' => hm m' (List.mem_cons_of_mem _ h'')

/-- A run whose manifest read returned `m` goes on with `m`. -/
theorem Prog.commitsImage_callManifest (m : Manifest) {α : Type} (k : Answer .manifest → Prog α)
    (he : ∀ e, (k (.error e)).CommitsImage fromBytes m)
    (hm : ∀ m', m' = m → (k (.ok m')).CommitsImage fromBytes m) :
    (Prog.call .manifest k).CommitsImage fromBytes m := by
  intro es r h hread
  rcases Prog.runs_call.1 h with ⟨rfl, -⟩ | ⟨a, es', rfl, h'⟩
  · exact .nil
  refine .cons (fun _ _ => nofun) ?_
  have hread' := fun m' h'' => hread m' (List.mem_cons_of_mem _ h'')
  rcases a with e | m'
  · exact he e _ _ h' hread'
  · exact hm m' (hread m' (List.mem_cons_self _ _)) _ _ h' hread'

/-- The loop of `Unpack` on a chain of `m`'s layers commits only chains of `m`: each build
is on a prefix of `m`'s layers, and its applier never calls the store. -/
theorem unpackLoop_commitsImage (m : Manifest) (fuel : Nat)
    {applier : Descriptor → List Mount → Prog (Except Error Descriptor)}
    (happ : ∀ desc mounts, (applier desc mounts).ReturnsOffStore) :
    ∀ (chain : List Digest) (artifacts : List Artifact),
      chain ++ artifacts.map (·.blob.digest) <+: m.layers.map (·.digest) →
      (unpackLoop fromBytes fuel applier chain artifacts).CommitsImage fromBytes m :=
  unpackLoop_stable_of (Prog.stable_commitsImage fromBytes m) fromBytes fuel
    (fun chain artifacts => chain ++ artifacts.map (·.blob.digest) <+: m.layers.map (·.digest))
    (fun _ _ _ hpre => by simpa using hpre)
    (fun chain artifact _ hpre es r h _ => by
      obtain ⟨es', r', h', hf, -⟩ := Prog.Runs.of_withApplier happ h
      rw [← CommitsWithin.filter_store, hf, CommitsWithin.filter_store]
      exact (applyArtifactWithOpts_commitsWithin fromBytes fuel artifact chain h').mono
        ((List.prefix_append _ _).trans (by simpa using hpre)))

/-- `Unpack` commits only the chains of the manifest it read, whatever its options. -/
theorem unpack_commitsImage (dflt : Defaults) (fuel : Nat) (name : String)
    (opts : List (UnpackConfig → Except Error UnpackConfig)) (m : Manifest) :
    (unpack fromBytes dflt fuel name opts).CommitsImage fromBytes m :=
  unpack_stable (Prog.stable_commitsImage fromBytes m) fromBytes dflt (· = m)
    (Prog.commitsImage_callManifest fromBytes m) fuel name opts
    (fun config m' hm' => by
      obtain rfl : m' = m := hm'
      exact unpackLoop_commitsImage fromBytes m' fuel
        (artifactApplierApply_returnsOffStore config.applyOpts) [] _
        (by simp [getArtifacts, Function.comp_def]))

/-- **`Unpack` commits only its image's chains.**  In every run of `image.Unpack`, whatever its
options and whatever every party answers, when the manifest the content store served is `m`,
every Commit is of the chain ID of a non-empty prefix of `m`'s layers: `Unpack` never commits a
snapshot under another name. -/
theorem unpack_commits_only_image_chains (dflt : Defaults) (fuel : Nat) (name : String)
    (opts : List (UnpackConfig → Except Error UnpackConfig)) (m : Manifest) {es : List Event}
    {r : Prog (Option Error)} (h : Prog.Runs (unpack fromBytes dflt fuel name opts) es r)
    (hm : ∀ m', (⟨.manifest, .ok m'⟩ : Event) ∈ es → m' = m) :
    ∀ cid key a, (⟨.commit cid key, a⟩ : Event) ∈ es →
      ∃ p, p ≠ [] ∧ p <+: m.layers.map (·.digest) ∧ cid = chainID fromBytes p :=
  unpack_commitsImage fromBytes dflt fuel name opts m es r h hm

end

theorem unpack_commits_only_image_chains_single :
    ∃ p, p ≠ [] ∧ p <+: [(⟨"t", "sha256:a", 1⟩ : Descriptor)].map (·.digest) ∧
      "sha256:a" = chainID id p :=
  unpack_commits_only_image_chains id ⟨"l", "overlayfs"⟩ 2 "" [] _
    (@Prog.exec_runs _ _ (contractEnv (imageOutside ⟨⟨"c", "sha256:c", 1⟩,
      [⟨"t", "sha256:a", 1⟩]⟩)) _ ⟨⟨[], []⟩, 0⟩)
    (by
      intro m' hm'
      obtain ⟨s', q, e⟩ := Prog.exec_event hm'
      obtain ⟨rfl, e⟩ := event_eq_iff.1 e
      rw [contractEnv_answer_other .manifest rfl] at e
      exact Except.ok.inj (eq_of_heq e))
    "sha256:a" "extract-0-AAAA sha256:a" none (List.mem_iff_get?.2 ⟨12, rfl⟩)

end AttributesClient
