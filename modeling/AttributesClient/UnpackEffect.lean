import AttributesClient.Views
import AttributesClient.Chains
import AttributesClient.Container

/-!
# What `Unpack` does to the store

`image.Unpack` is there to leave the snapshot of every prefix of the image's layers committed.
`UnpackEffect ds done s s'` says what an unpack of layers `ds` may do to the snapshotter's
state, with nothing of the code in it: the views are as they were, no committed snapshot is
lost, the only snapshots added are the image's chains (`imageChains ds`, the chain IDs of the
non-empty prefixes of `ds`), and when the unpack succeeded (`done`) all of them are committed.
On success that fixes the committed names: those committed before, and the image's chains
(`UnpackEffect.has_iff`).

The refinement puts together what the other modules prove of the code: the views are kept
(`unpack_keepsViews`), a committed snapshot stays (`Env.KeepsStore.exec_has`), a snapshot is
added only by a Commit of the run (`Env.KeepsStore.has_of_exec`), every Commit is of one of the
image's chains (`unpack_commitsImage`), and a success has committed every prefix
(`unpack_prefixes_committed`).

Results:

* `mem_imageChains`: the image's chains are the chain IDs of the non-empty prefixes of its
  layers;
* `unpack_refines_effect`: **every run of `Unpack` that returns has the effect
  `UnpackEffect`** on the store.

What this does not say: which of the image's chains a failed run committed, or on which parent;
and nothing of the labels `Unpack` writes in the content store.
-/

namespace AttributesClient

/-! ### The effect -/

/-- The chain IDs of the non-empty prefixes of `ds`: the snapshots of an image of layers `ds`. -/
def imageChains (fromBytes : String → Digest) (ds : List Digest) : List String :=
  (List.range ds.length).map fun k => chainID fromBytes (ds.take (k + 1))

theorem mem_imageChains {fromBytes : String → Digest} {ds : List Digest} {n : String} :
    n ∈ imageChains fromBytes ds ↔ ∃ p, p ≠ [] ∧ p <+: ds ∧ n = chainID fromBytes p := by
  simp only [imageChains, List.mem_map, List.mem_range]
  constructor
  · rintro ⟨k, hk, rfl⟩
    exact ⟨_, List.ne_nil_of_length_pos (by simp; omega), List.take_prefix _ _, rfl⟩
  · rintro ⟨p, hp, hpre, rfl⟩
    have hlen := List.length_pos.2 hp
    refine ⟨p.length - 1, by have := hpre.length_le; omega, ?_⟩
    rw [Nat.sub_add_cancel hlen, ← List.prefix_iff_eq_take.1 hpre]

/-- What unpacking an image of layers `ds` may do to the snapshotter's state `s`, leaving `s'`;
`done` says that the unpack succeeded. -/
structure UnpackEffect (fromBytes : String → Digest) (ds : List Digest) (done : Bool)
    (s s' : Store) : Prop where
  /-- The views are as they were. -/
  views : s'.views = s.views
  /-- No committed snapshot is lost. -/
  keeps : ∀ n, s.has n = true → s'.has n = true
  /-- The only snapshots added are the image's chains. -/
  within : ∀ n, s'.has n = true → s.has n = true ∨ n ∈ imageChains fromBytes ds
  /-- A successful unpack has committed every one of them. -/
  complete : done = true → ∀ n ∈ imageChains fromBytes ds, s'.has n = true

/-- After a successful unpack the committed snapshots are those committed before, and the
image's chains. -/
theorem UnpackEffect.has_iff {fromBytes : String → Digest} {ds : List Digest} {s s' : Store}
    (h : UnpackEffect fromBytes ds true s s') (n : String) :
    s'.has n = true ↔ s.has n = true ∨ n ∈ imageChains fromBytes ds :=
  ⟨h.within n, fun h' => h'.elim (h.keeps n) (h.complete rfl n)⟩

/-! ### `Unpack` has the effect -/

section Refines

variable (fromBytes : String → Digest) (dflt : Defaults) {outside : Nat → (q : Query) → Answer q}
  {manifest : Manifest}

/-- Against a content store that serves `manifest`, every manifest read of a run returned it. -/
theorem exec_manifest_read (hman : ∀ i, outside i .manifest = .ok manifest) {α : Type}
    (p : Prog α) (w : World) (m : Manifest)
    (hm : (⟨.manifest, .ok m⟩ : Event) ∈ (Prog.exec (contractEnv outside) p w).1) :
    m = manifest := by
  obtain ⟨w', q, e⟩ := Prog.exec_event hm
  obtain ⟨rfl, e⟩ := event_eq_iff.1 e
  rw [contractEnv_answer_other .manifest rfl, hman] at e
  exact Except.ok.inj (eq_of_heq e)

variable (hman : ∀ i, outside i .manifest = .ok manifest) (hst : SteadyClient outside)
  (hn : (contractEnv outside).NeverExists)
include hman hst hn

/-- **`Unpack` refines its effect.**  Against the contract store, a content store that serves the
manifest of layers `L`, a client that answers the same at every call and no party but the store
answering Already-Exists, every run of `image.Unpack` that returns, whatever its options (when
none of them fails Already-Exists) and whatever the applier answers, has the effect
`UnpackEffect` on the store: it keeps the views and every committed snapshot, commits only
chains of `L`, and, when it returns nil, has committed all of them. -/
theorem unpack_refines_effect (fuel : Nat) (name : String)
    {opts : List (UnpackConfig → Except Error UnpackConfig)}
    (hopts : ∀ config, opts.foldlM (fun config o => o config) ⟨false, []⟩ = .ok config →
      ∀ o ∈ config.applyOpts, ∀ desc e, o desc = some e → IsAlreadyExists e = false)
    {w w' : World} {es : List Event} {r : Option Error}
    (h : Prog.exec (contractEnv outside) (unpack fromBytes dflt fuel name opts) w =
      (es, .pure r, w')) :
    UnpackEffect fromBytes (manifest.layers.map (·.digest)) r.isNone w.store w'.store := by
  have hk := contractEnv_keepsStore outside
  refine ⟨unpack_keepsViews hk fromBytes dflt fuel name opts w w' r (congrArg Prod.snd h),
    fun n hw => ?_, fun n hw => ?_, fun hr n hc => ?_⟩
  · simpa [h] using hk.exec_has (unpack fromBytes dflt fuel name opts) hw
  · rcases hk.has_of_exec (unpack fromBytes dflt fuel name opts) (w := w) (by rw [h]; exact hw)
      with hw | ⟨key, a, hc⟩
    · exact .inl hw
    rw [h] at hc
    refine .inr (mem_imageChains.2 (unpack_commitsImage fromBytes dflt fuel name opts manifest
      es _ (h ▸ Prog.exec_runs _ w) (fun m hm => ?_) n key a hc))
    exact exec_manifest_read hman _ w m (by rw [h]; exact hm)
  · obtain rfl : r = none := Option.isNone_iff_eq_none.1 hr
    obtain ⟨k, hk, rfl⟩ := List.mem_map.1 (show n ∈ imageChains _ _ from hc)
    rw [← List.map_take]
    exact unpack_prefixes_committed fromBytes dflt hman hst hn hopts h (k + 1) k.succ_pos
      (by simpa using List.mem_range.1 hk)

end Refines

theorem unpack_refines_effect_single :
    ∃ es w' r, Prog.exec (contractEnv (imageOutside ⟨⟨"c", "sha256:c", 1⟩,
        [⟨"t", "sha256:a", 1⟩, ⟨"t", "sha256:b", 1⟩]⟩)) (unpack id ⟨"l", "overlayfs"⟩ 3 "" [])
        ⟨⟨[("x", "")], []⟩, 0⟩ = (es, .pure r, w') ∧
      UnpackEffect id ["sha256:a", "sha256:b"] r.isNone ⟨[("x", "")], []⟩ w'.store := by
  obtain ⟨es, w', r, h⟩ : ∃ es w' r, Prog.exec (contractEnv (imageOutside ⟨⟨"c", "sha256:c", 1⟩,
      [⟨"t", "sha256:a", 1⟩, ⟨"t", "sha256:b", 1⟩]⟩)) (unpack id ⟨"l", "overlayfs"⟩ 3 "" [])
      ⟨⟨[("x", "")], []⟩, 0⟩ = (es, .pure r, w') := ⟨_, _, _, rfl⟩
  exact ⟨es, w', r, h, @unpack_refines_effect id ⟨"l", "overlayfs"⟩
    (imageOutside ⟨⟨"c", "sha256:c", 1⟩, [⟨"t", "sha256:a", 1⟩, ⟨"t", "sha256:b", 1⟩]⟩)
    ⟨⟨"c", "sha256:c", 1⟩, [⟨"t", "sha256:a", 1⟩, ⟨"t", "sha256:b", 1⟩]⟩ (fun _ => rfl)
    (fun _ _ _ => ⟨rfl, rfl⟩) (imageOutside_neverExists _) 3 "" []
    (fun _ hc _ ho => by cases hc; cases ho) _ _ _ _ h⟩

end AttributesClient
