import Mathlib.Data.DFinsupp.WellFounded
import Mathlib.Data.List.Nodup
import Mathlib.Data.List.OfFn
import AttributesClient.Build
import AttributesClient.Image

/-!
# Builders in parallel over one store

Any number of builders share one snapshot store: each runs `applyArtifactsWithOpts` on a layer
list, or the per-layer loop of `Unpack` over one, on lists that may be the same or share
prefixes.  A step of the system is one call of one builder (`Step`); the parties answer it as
`Answers` says: the store atomically by its contract, a Prepare only on a key that no view has
(build keys never collide); the applier with the declared digest; the content store's label
Update, which the loop of `Unpack` makes after each layer it applied, with success.

The proof is by rely and guarantee.  `Safe Q p s K` says that the builder program `p`, holding
the views `K`, makes every call it makes from the store `s` on within its guarantee
(`Query.Guar`: it commits and removes only views it holds, and commits the chain ID of a
requested prefix only over its committed parent), whatever the others do in between within its
rely (`Rely`: nothing committed goes, and the views it holds stay), and returns `b` with `Q b`.
Each builder's own program is `Safe` from any store (`safe_job`), but `applyArtifactsWithOpts`
on the empty list, which only Stats the chain ID of no layers and then returns it or panics
(`Job.EmptyAt`).  Every step of every builder keeps the system's invariant (`Inv.step`), whose
part for the store is that committed names are distinct and the requested prefixes downward
closed (`StoreOk`).

Results:

* `safe_applyArtifacts`: a frame returns success or Already-Exists with its chain ID committed,
  and holds no view then;
* `safe_job`: each builder of a non-empty list, or of the per-layer loop, returns its success
  with its chain committed and no view held;
* `Job.EmptyAt.step`: a builder of `applyArtifactsWithOpts` on the empty list changes nothing;
* `Inv.step`: every step of the system keeps the invariant;
* `step_wf`: every run of the system is finite;
* `Sys.stopped`: where no step is possible and build keys do not collide, every builder has
  stopped;
* `builders_succeed`: every run is finite, and where it stops each builder returned success,
  but one of `applyArtifactsWithOpts` on the empty list, which may have panicked
  (`builders_empty_list_panics`); every prefix of every requested list is committed exactly
  once, and the views are those the store started with;
* `builders_safe`: in every state any interleaving reaches, no name is committed twice, a
  requested prefix is committed only over its parent, and only a builder of the empty list can
  have panicked.
-/

namespace AttributesClient

/-! ### The builders and the parties' answers -/

/-- A builder of the system: `ApplyArtifactsWithOpts` on a layer list, or the per-layer loop of
`Unpack` over one. -/
inductive Job where
  | whole (layers : List Artifact)
  | perLayer (layers : List Artifact)

namespace Job

def layers : Job → List Artifact
  | whole l => l
  | perLayer l => l

/-- What the builder returns. -/
def Result : Job → Type
  | whole _ => Except Error Digest
  | perLayer _ => Except Error (List Digest)

/-- The applier the builders hand over: the diff applier itself. -/
def forwardApplier (desc : Descriptor) (mounts : List Mount) : Prog (Except Error Descriptor) :=
  .call (.apply desc mounts) .pure

/-- The builder's program. -/
def prog (fromBytes : String → Digest) (fuel : Nat) : (j : Job) → Prog j.Result
  | whole l => applyArtifactsWithOpts fromBytes fuel l
  | perLayer l => unpackLoop fromBytes fuel forwardApplier [] l

/-- The builder's success: the chain ID of the whole list, or the chain of all the layers. -/
def Success (fromBytes : String → Digest) : (j : Job) → j.Result → Prop
  | whole l, r => r = .ok (chainID fromBytes (l.map (·.blob.digest)))
  | perLayer l, r => r = .ok (l.map (·.blob.digest))

end Job

/-- How the parties answer a builder's call: the store by its contract, atomically, a Prepare
only on a key that no view has; the applier with a descriptor of the declared digest; the clock
with any reading; the content store's Update with success. -/
def Answers (s : Store) : (q : Query) → Answer q → Store → Prop
  | .stat key, a, s' => a = s.stat key ∧ s' = s
  | .prepare key parent, a, s' =>
    s.hasView key = false ∧ a = (s.prepare key parent).1 ∧ s' = (s.prepare key parent).2
  | .commit name key, a, s' => a = (s.commit name key).1 ∧ s' = (s.commit name key).2
  | .remove key, a, s' => a = (s.remove key).1 ∧ s' = (s.remove key).2
  | .apply desc _, a, s' => (∃ d : Descriptor, a = .ok d ∧ d.digest = desc.digest) ∧ s' = s
  | .update _ _, a, s' => a = none ∧ s' = s
  | _, _, s' => s' = s

/-! ### Rely and guarantee -/

section RelyGuarantee

variable (fromBytes : String → Digest) (req : List (List Digest))

/-- `c` is a non-empty prefix of a requested list. -/
def Requested (c : List Digest) : Prop := c ≠ [] ∧ ∃ l ∈ req, c <+: l

/-- A name a builder may commit on `s`: the chain ID of a requested prefix whose parent is
committed. -/
def GoodName (s : Store) (name : String) : Prop :=
  ∃ c, Requested req c ∧ name = chainID fromBytes c ∧
    (c.dropLast ≠ [] → s.has (chainID fromBytes c.dropLast) = true)

/-- What a builder holding the views `K` must meet to make a call on `s`. -/
def Query.Guar (K : List String) (s : Store) : Query → Prop
  | .commit name key => key ∈ K ∧ GoodName fromBytes req s name
  | .remove key => key ∈ K
  | _ => True

/-- The views a builder holds after a call answered `a`. -/
def Query.holds (K : List String) : (q : Query) → Answer q → List String
  | .prepare key _, .ok _ => key :: K
  | .commit _ key, none => K.erase key
  | .remove key, _ => K.erase key
  | _, _ => K

/-- What the other builders may do between two calls of a builder holding `K`: nothing
committed goes, and the views in `K` stay. -/
def Rely (K : List String) (s s' : Store) : Prop :=
  (∀ name, s.has name = true → s'.has name = true) ∧
    ∀ key ∈ K, s'.views.lookup key = s.views.lookup key

/-- **A builder's program is safe**: holding the views `K` from the store `s` on, it makes each
call within its guarantee whatever the others did before it within its rely, and on every
answer of `Answers` it goes on safely, or returns `b` with `Q b` of the store and of the views
it then holds. -/
def Safe {β : Type} (Q : β → Store → List String → Prop) : Prog β → Store → List String → Prop
  | .pure b, s, K => Q b s K
  | .call q k, s, K => ∀ s₁, Rely K s s₁ → Query.Guar fromBytes req K s₁ q ∧
      ∀ a s₂, Answers s₁ q a s₂ → Safe Q (k a) s₂ (q.holds K a)
  | .panic _, _, _ => False
  | .cut, _, _ => False

end RelyGuarantee

/-! ### Safe programs -/

section Safe

variable {fromBytes : String → Digest} {req : List (List Digest)}

theorem Rely.refl (K : List String) (s : Store) : Rely K s s := ⟨fun _ h => h, fun _ _ => rfl⟩

theorem Rely.trans {K : List String} {s₁ s₂ s₃ : Store} (h₁ : Rely K s₁ s₂) (h₂ : Rely K s₂ s₃) :
    Rely K s₁ s₃ :=
  ⟨fun n h => h₂.1 n (h₁.1 n h), fun k hk => (h₂.2 k hk).trans (h₁.2 k hk)⟩

variable {β γ : Type}

/-- A safe program followed by a continuation safe on each of its returns is safe. -/
theorem Safe.bind {Q : γ → Store → List String → Prop} {p : Prog β} {f : β → Prog γ}
    {s : Store} {K : List String}
    (h : Safe fromBytes req (fun b s' K' => Safe fromBytes req Q (f b) s' K') p s K) :
    Safe fromBytes req Q (p >>= f) s K := by
  induction p generalizing s K with
  | pure b => exact h
  | call q k ih => exact fun s₁ hR => ⟨(h s₁ hR).1, fun a s₂ ha => ih a ((h s₁ hR).2 a s₂ ha)⟩
  | panic m => exact h.elim
  | cut => exact h.elim

theorem Safe.mono {Q Q' : β → Store → List String → Prop} (hQ : ∀ b s K, Q b s K → Q' b s K)
    {p : Prog β} {s : Store} {K : List String} (h : Safe fromBytes req Q p s K) :
    Safe fromBytes req Q' p s K := by
  induction p generalizing s K with
  | pure b => exact hQ _ _ _ h
  | call q k ih => exact fun s₁ hR => ⟨(h s₁ hR).1, fun a s₂ ha => ih a ((h s₁ hR).2 a s₂ ha)⟩
  | panic m => exact h.elim
  | cut => exact h.elim

/-- A safe program stays safe when the others move first, if its return condition does. -/
theorem Safe.rely {Q : β → Store → List String → Prop} {p : Prog β} {s s' : Store}
    {K : List String} (h : Safe fromBytes req Q p s K)
    (hQ : ∀ b s s' K, Rely K s s' → Q b s K → Q b s' K) (hR : Rely K s s') :
    Safe fromBytes req Q p s' K := by
  cases p with
  | pure b => exact hQ _ _ _ _ hR h
  | call q k => exact fun s₁ hR' => h s₁ (hR.trans hR')
  | panic m => exact h.elim
  | cut => exact h.elim

end Safe

/-! ### A frame of `applyArtifacts` among the others -/

section Frame

variable {fromBytes : String → Digest} {req : List (List Digest)}

/-- What a frame of the chain `chain` returns among the others: success or Already-Exists,
its chain ID committed, and the views held before. -/
def FrameDone (fromBytes : String → Digest) (chain : List Digest) (K : List String)
    (r : Option Error) (s : Store) (K' : List String) : Prop :=
  K' = K ∧ r.all IsAlreadyExists = true ∧ s.has (chainID fromBytes chain) = true

/-- After its Prepare was accepted on the committed parent, a frame applies, commits and cleans
up. -/
theorem safe_frameRest {chain : List Digest} (hc : Requested req chain) {artifact : Artifact}
    {key parent : String} {mounts : List Mount} {s : Store} {K : List String}
    (hv : s.views.lookup key = some parent)
    (hp : chain.dropLast ≠ [] → s.has (chainID fromBytes chain.dropLast) = true) :
    Safe fromBytes req (FrameDone fromBytes chain K)
      (frameRest (chainID fromBytes chain) artifact (.ok (key, mounts))) s (key :: K) := by
  rw [frameRest]
  apply Safe.bind
  intro s₁ hR₁
  refine ⟨trivial, ?_⟩
  rintro a s₂ ⟨⟨d, rfl, hd⟩, rfl⟩
  simp only [hd, ne_eq, not_true_eq_false, if_false]
  intro s₃ hR₃
  refine ⟨⟨List.mem_cons_self _ _, chain, hc, rfl, fun h => hR₃.1 _ (hR₁.1 _ (hp h))⟩, ?_⟩
  rintro a s₄ ⟨rfl, rfl⟩
  have hl : s₃.views.lookup key = some parent :=
    ((hR₃.2 key (List.mem_cons_self _ _)).trans (hR₁.2 key (List.mem_cons_self _ _))).trans hv
  cases hhas : s₃.has (chainID fromBytes chain)
  · simp only [Store.commit, hl, hhas, if_false]
    exact ⟨by simp [Query.holds], rfl, by simp⟩
  · simp only [Store.commit, hl, hhas, if_true]
    intro s₅ hR₅
    refine ⟨List.mem_cons_self _ _, ?_⟩
    rintro a s₆ ⟨rfl, rfl⟩
    exact ⟨by simp [Query.holds], by simp [IsAlreadyExists],
      by rw [Store.has_remove]; exact hR₅.1 _ hhas⟩

/-- A turn of the prepare loop: the clock, then a Prepare on a key that no view of the store
has, the store being what the others left. -/
theorem safe_loop_turn {Q : Option Error → Store → List String → Prop}
    {rec : List Artifact → List Digest → Prog (Option Error)} {pchain : List Digest}
    {parent cid : String} {m : Nat} {arts : List Artifact} {artifact : Artifact} {s : Store}
    {K : List String}
    (h : ∀ s' key, Rely K s s' → s'.hasView key = false →
      Safe fromBytes req Q (prepareNext (prepareLoop rec pchain parent cid m) rec pchain arts key
          (s'.prepare key parent).1 >>= frameRest cid artifact)
        (s'.prepare key parent).2 ((Query.prepare key parent).holds K (s'.prepare key parent).1)) :
    Safe fromBytes req Q (prepareLoop rec pchain parent cid (m + 1) arts >>= frameRest cid artifact)
      s K := by
  simp only [prepareLoop, uniquePart, Prog.call_bind, Prog.pure_bind']
  intro s₁ hR₁
  refine ⟨trivial, ?_⟩
  rintro tb s₂ rfl s₃ hR₃
  refine ⟨trivial, ?_⟩
  rintro a s₄ ⟨hfresh, rfl, rfl⟩
  exact h s₃ _ (hR₁.trans hR₃) hfresh

variable (hH : ∀ x, fromBytes x ≠ "") (hd : ∀ l ∈ req, ∀ d ∈ l, d ≠ "")
include hH hd

/-- The parent of a requested chain may carry a view only when it is committed, or is the
empty root of a one-layer chain. -/
theorem Requested.has_parent {chain : List Digest} (hc : Requested req chain) {s : Store}
    (hcp : s.canParent (chainID fromBytes chain.dropLast) = true) (hne : chain.dropLast ≠ []) :
    s.has (chainID fromBytes chain.dropLast) = true := by
  obtain ⟨-, l, hl, hpre⟩ := hc
  have hnz : chainID fromBytes chain.dropLast ≠ "" := chainID_ne_empty _ hH hne
    fun d h => hd l hl d (hpre.subset (List.dropLast_subset _ h))
  simpa [Store.canParent, hnz] using hcp

/-- A Prepare accepted on the parent of a requested chain: the frame goes on to apply and
commit. -/
theorem safe_prepare_ok {chain : List Digest} (hc : Requested req chain)
    {next : List Artifact → Prog (Except Error (String × List Mount))}
    {rec : List Artifact → List Digest → Prog (Option Error)} {pchain : List Digest}
    {arts : List Artifact} {key : String} {artifact : Artifact} {s : Store} {K : List String}
    (hfresh : s.hasView key = false)
    (hcp : s.canParent (chainID fromBytes chain.dropLast) = true) :
    Safe fromBytes req (FrameDone fromBytes chain K)
      (prepareNext next rec pchain arts key (s.prepare key (chainID fromBytes chain.dropLast)).1 >>=
        frameRest (chainID fromBytes chain) artifact)
      (s.prepare key (chainID fromBytes chain.dropLast)).2
      ((Query.prepare key (chainID fromBytes chain.dropLast)).holds K
        (s.prepare key (chainID fromBytes chain.dropLast)).1) := by
  rw [Store.prepare_of_fresh hfresh hcp]
  simp only [prepareNext, Prog.pure_bind', Query.holds]
  exact safe_frameRest hc (by simp : ((key, chainID fromBytes chain.dropLast) :: s.views).lookup key =
    some (chainID fromBytes chain.dropLast)) fun hne => hc.has_parent hH hd hcp hne

/-- A turn of the loop once the parent is committed, or is the empty root. -/
theorem safe_turn {chain : List Digest} (hc : Requested req chain)
    {rec : List Artifact → List Digest → Prog (Option Error)} {pchain : List Digest}
    {arts : List Artifact} {m : Nat} {artifact : Artifact} {s : Store} {K : List String}
    (hp : chain.dropLast ≠ [] → s.has (chainID fromBytes chain.dropLast) = true) :
    Safe fromBytes req (FrameDone fromBytes chain K)
      (prepareLoop rec pchain (chainID fromBytes chain.dropLast) (chainID fromBytes chain) (m + 1)
        arts >>= frameRest (chainID fromBytes chain) artifact) s K :=
  safe_loop_turn fun _ _ hR hfresh => safe_prepare_ok hH hd hc hfresh <| by
    by_cases hne : chain.dropLast = []
    · simp [Store.canParent, hne]
    · simp [Store.canParent, hR.1 _ (hp hne)]

/-- **A frame of `applyArtifacts` among the others returns success or Already-Exists with its
chain committed**, holding the views it held before, when its fuel covers its artifacts and,
unless they are the whole chain, the parent is committed. -/
theorem safe_applyArtifacts : ∀ (f : Nat) {arts : List Artifact} {chain : List Digest}
    {s : Store} {K : List String}, FrameOk arts chain → Requested req chain → arts.length ≤ f →
    (arts.length < chain.length → s.has (chainID fromBytes chain.dropLast) = true) →
    Safe fromBytes req (FrameDone fromBytes chain K) (applyArtifacts fromBytes (f + 1) arts chain) s K
  | 0, arts, _, _, _, hfr, _, hlen, _ => absurd (List.length_pos.2 hfr.1) (by omega)
  | m + 1, arts, chain, s, K, hfr, hc, hlen, hpar => by
    rw [applyArtifacts_of_frameOk fromBytes hfr]
    refine safe_loop_turn fun s₃ key hR hfresh => ?_
    by_cases hcp : s₃.canParent (chainID fromBytes chain.dropLast) = true
    · exact safe_prepare_ok hH hd hc hfresh hcp
    have hcp' : s₃.canParent (chainID fromBytes chain.dropLast) = false := by simpa using hcp
    have heq : arts.length = chain.length := by
      refine le_antisymm hfr.length_le (not_lt.1 fun hlt => hcp ?_)
      simp [Store.canParent, hR.1 _ (hpar hlt)]
    have h1 : 1 < arts.length := by
      by_contra h1
      have hne : chain.dropLast = [] := by
        rw [← List.length_eq_zero, List.length_dropLast]; omega
      simp [Store.canParent, hne] at hcp
    rw [Store.prepare_of_missing hfresh hcp']
    simp only [prepareNext, Query.holds]
    rw [if_pos (by simp [IsNotFound, h1]), Prog.bind_assoc]
    apply Safe.bind
    refine Safe.mono ?_ (safe_applyArtifacts m (hfr.child h1)
      ⟨fun h => by have := congrArg List.length h; simp [List.length_dropLast] at this; omega,
        hc.2.imp fun l ⟨hl, hpre⟩ => ⟨hl, (List.dropLast_prefix chain).trans hpre⟩⟩
      (by simp; omega) (by simp [List.length_dropLast]; omega))
    rintro r s' K' ⟨rfl, hr, hhas⟩
    obtain ⟨m', rfl⟩ : ∃ m', m = m' + 1 := ⟨m - 1, by omega⟩
    rcases r with _ | e
    · exact safe_turn hH hd hc fun _ => hhas
    · simp only [Option.all_some] at hr
      simp only [hr, if_true]
      exact safe_turn hH hd hc fun _ => hhas

end Frame

/-! ### Each builder among the others -/

/-- Handing the diff applier itself to a program changes nothing. -/
theorem Prog.withApplier_forward {α : Type} (p : Prog α) :
    p.withApplier Job.forwardApplier = p := by
  induction p with
  | pure a => rfl
  | call q k ih =>
    cases q <;> simp only [Prog.withApplier, Job.forwardApplier, Prog.call_bind, Prog.pure_bind', ih]
  | panic m => rfl
  | cut => rfl

/-- What a builder returns among the others: its success, with the snapshot of its whole chain
committed, and no view held. -/
def JobDone (fromBytes : String → Digest) (j : Job) (r : j.Result) (s : Store)
    (K : List String) : Prop :=
  j.Success fromBytes r ∧ K = [] ∧
    (j.layers ≠ [] → s.has (chainID fromBytes (j.layers.map (·.blob.digest))) = true)

section Jobs

variable {fromBytes : String → Digest} {req : List (List Digest)}
  (hH : ∀ x, fromBytes x ≠ "") (hd : ∀ l ∈ req, ∀ d ∈ l, d ≠ "")
include hH hd

/-- **`applyArtifactsWithOpts` among the others returns the chain ID of its list, committed.** -/
theorem safe_whole {l : List Artifact} (hl : l ≠ []) (hreq : l.map (·.blob.digest) ∈ req)
    {fuel : Nat} (hfuel : l.length < fuel) (s : Store) :
    Safe fromBytes req (JobDone fromBytes (.whole l)) (Job.prog fromBytes fuel (.whole l)) s [] := by
  obtain ⟨f, rfl⟩ : ∃ f, fuel = f + 1 := ⟨fuel - 1, by omega⟩
  intro s₁ hR₁
  refine ⟨trivial, ?_⟩
  rintro a s₂ ⟨rfl, h₂⟩
  rw [h₂]
  cases hst : s₁.has (chainID fromBytes (l.map (·.blob.digest)))
  · simp only [Store.stat, hst, if_false, IsNotFound, Error.is_sentinel, beq_self_eq_true,
      Bool.not_true]
    apply Safe.bind
    refine Safe.mono ?_ (safe_applyArtifacts hH hd f (frameOk_map hl)
      ⟨by simpa using hl, _, hreq, List.prefix_refl _⟩ (by omega) (by simp))
    rintro r s' K' ⟨rfl, hr, hhas⟩
    rcases r with _ | e
    · exact ⟨rfl, rfl, fun _ => hhas⟩
    · simp only [Option.all_some] at hr
      simp only [hr, if_true]
      exact ⟨rfl, rfl, fun _ => hhas⟩
  · simp only [Store.stat, hst, if_true]
    exact ⟨rfl, rfl, fun _ => hst⟩

/-- The per-layer loop of `Unpack` among the others, from a committed chain on. -/
theorem safe_unpackLoop {fuel : Nat} {full : List Digest} (hreq : full ∈ req)
    (arts : List Artifact) : ∀ (chain : List Digest) (s : Store),
      chain ++ arts.map (·.blob.digest) = full → arts.length < fuel →
      (chain ≠ [] → s.has (chainID fromBytes chain) = true) →
      Safe fromBytes req (fun (r : Except Error (List Digest)) s' K' => r = .ok full ∧ K' = [] ∧
          (full ≠ [] → s'.has (chainID fromBytes full) = true))
        (unpackLoop fromBytes fuel Job.forwardApplier chain arts) s [] := by
  induction arts with
  | nil =>
    intro chain s hfull _ hs
    simp only [List.map_nil, List.append_nil] at hfull
    subst hfull
    exact ⟨rfl, rfl, hs⟩
  | cons a rest ih =>
    intro chain s hfull hlen hs
    obtain ⟨f, rfl⟩ : ∃ f, fuel = f + 1 := ⟨fuel - 1, by omega⟩
    simp only [List.length_cons] at hlen
    have hc : Requested req (chain ++ [a.blob.digest]) :=
      ⟨by simp, full, hreq, ⟨rest.map (·.blob.digest), by rw [← hfull]; simp⟩⟩
    have hnext : ∀ s', s'.has (chainID fromBytes (chain ++ [a.blob.digest])) = true →
        Safe fromBytes req (fun (r : Except Error (List Digest)) s' K' => r = .ok full ∧ K' = [] ∧
            (full ≠ [] → s'.has (chainID fromBytes full) = true))
          (unpackLoop fromBytes (f + 1) Job.forwardApplier (chain ++ [a.blob.digest]) rest) s' [] :=
      fun s' h => ih _ s' (by rw [← hfull]; simp) (by omega) fun _ => h
    rw [unpackLoop, Prog.withApplier_forward]
    apply Safe.bind
    intro s₁ hR₁
    refine ⟨trivial, ?_⟩
    rintro x s₂ ⟨rfl, h₂⟩
    rw [h₂]
    cases hst : s₁.has (chainID fromBytes (chain ++ [a.blob.digest]))
    · simp only [Store.stat, hst, if_false, IsNotFound, Error.is_sentinel, beq_self_eq_true,
        Bool.not_true]
      apply Safe.bind
      refine Safe.mono ?_ (safe_applyArtifacts hH hd f (frameOk_single a chain) hc (by simp; omega)
        fun hlt => ?_)
      · rintro r s' K' ⟨rfl, hr, hhas⟩
        rcases r with _ | e
        · intro s₃ hR₃
          refine ⟨trivial, ?_⟩
          rintro u s₄ ⟨rfl, h₄⟩
          rw [h₄]
          exact hnext s₃ (hR₃.1 _ hhas)
        · simp only [Option.all_some] at hr
          simp only [hr, if_true]
          exact hnext s' hhas
      · have hne : chain ≠ [] := by rintro rfl; simp at hlt
        simpa using hR₁.1 _ (hs hne)
    · simp only [Store.stat, hst, if_true]
      exact hnext s₁ hst

/-- A builder's program may run: `applyArtifactsWithOpts` on a non-empty list (on the empty
list it panics), the per-layer loop on any list. -/
def Job.Valid : Job → Prop
  | whole l => l ≠ []
  | perLayer _ => True

/-- **Each builder's program is safe from any store**, holding no view. -/
theorem safe_job {j : Job} (hj : j.Valid) (hreq : j.layers.map (·.blob.digest) ∈ req) {fuel : Nat}
    (hfuel : j.layers.length < fuel) (s : Store) :
    Safe fromBytes req (JobDone fromBytes j) (j.prog fromBytes fuel) s [] := by
  cases j with
  | whole l => exact safe_whole hH hd hj hreq hfuel s
  | perLayer l =>
    refine Safe.mono ?_ (safe_unpackLoop hH hd hreq l [] s rfl hfuel (by simp))
    rintro r s' K' ⟨rfl, rfl, hhas⟩
    exact ⟨rfl, rfl, fun hne => hhas (by simpa using hne)⟩

end Jobs

/-! ### A builder of the empty list -/

/-- Where a builder of `ApplyArtifactsWithOpts` on the empty list can be: about to Stat the chain
ID of no layers, returned it, or panicked slicing its empty chain. -/
def Job.EmptyAt (fromBytes : String → Digest) : (j : Job) → Prog j.Result → Prop
  | .whole [], p => (∃ f, 0 < f ∧ p = applyArtifactsWithOpts fromBytes f []) ∨
      p = .pure (.ok "") ∨ p = .panic "slice bounds out of range"
  | _, _ => False

namespace Job

variable {fromBytes : String → Digest}

/-- The only builder that may not run is `ApplyArtifactsWithOpts` on the empty list. -/
theorem eq_whole_nil_of_not_valid {j : Job} (h : ¬ j.Valid) : j = .whole [] := by
  cases j with
  | whole l => simpa [Valid] using h
  | perLayer l => exact absurd trivial h

/-- It starts about to Stat. -/
theorem emptyAt_prog {j : Job} (h : ¬ j.Valid) {fuel : Nat} (hf : j.layers.length < fuel) :
    j.EmptyAt fromBytes (j.prog fromBytes fuel) := by
  obtain rfl := eq_whole_nil_of_not_valid h
  exact .inl ⟨fuel, hf, rfl⟩

/-- **A builder of the empty list only Stats**: its one call is the Stat of the chain ID of no
layers, which changes nothing, and after it the builder has returned or panicked. -/
theorem EmptyAt.step {j : Job} {p : Prog j.Result} (h : j.EmptyAt fromBytes p) {q : Query}
    {k : Answer q → Prog j.Result} (hp : p = .call q k) {s s' : Store} {a : Answer q}
    (ha : Answers s q a s') (K : List String) :
    s' = s ∧ q.holds K a = K ∧ j.EmptyAt fromBytes (k a) := by
  cases j with
  | perLayer l => exact h.elim
  | whole l =>
    cases l with
    | cons _ _ => exact h.elim
    | nil =>
      rcases h with ⟨_ | f, hf, rfl⟩ | rfl | rfl
      · omega
      · simp only [applyArtifactsWithOpts, Prog.call.injEq] at hp
        obtain ⟨rfl, hk⟩ := hp
        cases hk
        obtain ⟨rfl, rfl⟩ := ha
        refine ⟨rfl, rfl, ?_⟩
        unfold Store.stat
        split
        · exact .inr (.inl rfl)
        · exact .inr (.inr rfl)
      · cases hp
      · cases hp

/-- Stopped, it has returned the chain ID of no layers, or panicked. -/
theorem EmptyAt.stopped {j : Job} {p : Prog j.Result} (h : j.EmptyAt fromBytes p)
    (hp : ∀ q k, p ≠ .call q k) :
    (∃ r, p = .pure r ∧ j.Success fromBytes r) ∨
      (j = .whole [] ∧ p = .panic "slice bounds out of range") := by
  cases j with
  | perLayer l => exact h.elim
  | whole l =>
    cases l with
    | cons _ _ => exact h.elim
    | nil =>
      rcases h with ⟨f, -, rfl⟩ | rfl | rfl
      · exact (hp _ _ rfl).elim
      · exact .inl ⟨_, rfl, rfl⟩
      · exact .inr ⟨rfl, rfl⟩

end Job

/-! ### The store under a step of another builder -/

theorem any_fst_eq_isSome_lookup (l : List (String × String)) (k : String) :
    l.any (·.1 == k) = (l.lookup k).isSome := by
  induction l with
  | nil => rfl
  | cons v l ih =>
    obtain ⟨k', p⟩ := v
    by_cases h : k = k'
    · subst h; simp [List.lookup_cons]
    · simp [List.lookup_cons, beq_false_of_ne h, beq_false_of_ne (Ne.symm h), ih]

section Steps

variable {fromBytes : String → Digest} {req : List (List Digest)} {s s' : Store} {q : Query}
  {a : Answer q}

/-- **What a step does** to the store and to the views its builder holds: nothing, a new view on
a fresh key, a commit of a view, or the removal of one. -/
theorem Answers.effect (h : Answers s q a s') (K : List String) :
    (s' = s ∧ q.holds K a = K) ∨
    (∃ key parent, q = .prepare key parent ∧ s.hasView key = false ∧
      s' = { s with views := (key, parent) :: s.views } ∧ q.holds K a = key :: K) ∨
    (∃ name key parent, q = .commit name key ∧ s.has name = false ∧
      s' = ⟨(name, parent) :: s.committed, s.views.filter (·.1 != key)⟩ ∧
      q.holds K a = K.erase key) ∨
    (∃ key, q = .remove key ∧ s' = { s with views := s.views.filter (·.1 != key) } ∧
      q.holds K a = K.erase key) := by
  cases q with
  | prepare key parent =>
    obtain ⟨hfresh, rfl, rfl⟩ := h
    unfold Store.prepare
    by_cases hcp : s.canParent parent = true
    · exact .inr (.inl ⟨key, parent, rfl, hfresh, by simp [hfresh, hcp], by simp [hfresh, hcp, Query.holds]⟩)
    · exact .inl ⟨by simp [hfresh, hcp], by simp [hfresh, hcp, Query.holds]⟩
  | commit name key =>
    obtain ⟨rfl, rfl⟩ := h
    unfold Store.commit
    rcases hl : s.views.lookup key with _ | parent
    · exact .inl ⟨rfl, rfl⟩
    · by_cases hn : s.has name = true
      · exact .inl ⟨by simp [hn], by simp [hn, Query.holds]⟩
      · refine .inr (.inr (.inl ⟨name, key, parent, rfl, by simpa using hn, by simp [hn], ?_⟩))
        simp [hn, Query.holds]
  | remove key =>
    obtain ⟨rfl, rfl⟩ := h
    refine .inr (.inr (.inr ⟨key, rfl, ?_, rfl⟩))
    unfold Store.remove
    split_ifs with hv
    · rfl
    · simp only [Store.hasView, Bool.not_eq_true, List.any_eq_false, beq_iff_eq] at hv
      rw [List.filter_eq_self.2 fun v h => bne_iff_ne.2 (hv v h)]
  | stat key => exact .inl ⟨h.2, rfl⟩
  | apply desc mounts => exact .inl ⟨h.2, rfl⟩
  | update info paths => exact .inl ⟨h.2, rfl⟩
  | _ => exact .inl ⟨h, rfl⟩

/-- A step of any builder keeps what is committed. -/
theorem Answers.has (h : Answers s q a s') {name : String} (hn : s.has name = true) :
    s'.has name = true := by
  rcases h.effect [] with ⟨rfl, -⟩ | ⟨-, -, -, -, rfl, -⟩ | ⟨-, -, -, -, -, rfl, -⟩ | ⟨-, -, rfl, -⟩
  · exact hn
  · exact hn
  · simp [hn]
  · exact hn

/-- A step of a builder within its guarantee leaves the views it does not hold. -/
theorem Answers.lookup (h : Answers s q a s') {K : List String}
    (hg : Query.Guar fromBytes req K s q) {k : String} (hk : k ∉ K) (hv : s.hasView k = true) :
    s'.views.lookup k = s.views.lookup k := by
  rcases h.effect K with ⟨rfl, -⟩ | ⟨key, _, rfl, hfresh, rfl, -⟩ | ⟨_, key, _, rfl, -, rfl, -⟩ |
    ⟨key, rfl, rfl, -⟩
  · rfl
  · have hne : k ≠ key := by rintro rfl; simp [hv] at hfresh
    simp [List.lookup_cons, beq_false_of_ne hne]
  · exact lookup_filter_ne fun e => hk (e ▸ hg.1)
  · exact lookup_filter_ne fun e => hk (e ▸ hg)

end Steps

/-! ### The system -/

theorem JobDone.rely {fromBytes : String → Digest} {j : Job} {r : j.Result} {s s' : Store}
    {K : List String} (hR : Rely K s s') (h : JobDone fromBytes j r s K) : JobDone fromBytes j r s' K :=
  ⟨h.1, h.2.1, fun hne => hR.1 _ (h.2.2 hne)⟩

theorem hasView_filter_ne {views : List (String × String)} {key k : String} (hk : k ≠ key) :
    (views.filter (·.1 != key)).any (·.1 == k) = views.any (·.1 == k) := by
  rw [any_fst_eq_isSome_lookup, any_fst_eq_isSome_lookup, lookup_filter_ne hk]

section System

variable {n : Nat} (fromBytes : String → Digest) (jobs : Fin n → Job)

/-- The layer lists the builders ask for, as digest lists. -/
def requested : List (List Digest) := List.ofFn fun i => (jobs i).layers.map (·.blob.digest)

/-- The system's state: the store, and where each builder is in its program. -/
structure Sys where
  store : Store
  progs : (i : Fin n) → Prog (jobs i).Result

/-- The system at the start: the store `s`, every builder at the start of its program. -/
def Sys.init (fuel : Nat) (s : Store) : Sys jobs := ⟨s, fun i => (jobs i).prog fromBytes fuel⟩

/-- **A step of the system**: one call of one builder, answered. -/
def Step (S S' : Sys jobs) : Prop :=
  ∃ i q k a, S.progs i = .call q k ∧ Answers S.store q a S'.store ∧
    S'.progs = Function.update S.progs i (k a)

/-- The store's part of the invariant: committed names are distinct, and the snapshot of a
requested prefix is committed only with its parent's. -/
structure StoreOk (req : List (List Digest)) (s : Store) : Prop where
  nodup : (s.committed.map (·.1)).Nodup
  closed : ∀ c, Requested req c → c.dropLast ≠ [] → s.has (chainID fromBytes c) = true →
    s.has (chainID fromBytes c.dropLast) = true

/-- A view some builder holds. -/
def Held (Ks : Fin n → List String) (k : String) : Prop := ∃ i, k ∈ Ks i

/-- The views' part of the invariant, with the views `Ks i` that builder `i` holds: they are
views of the store, each held once and by one builder, and every other view is one the store
started with. -/
structure ViewsOk (s₀ : Store) (views : List (String × String)) (Ks : Fin n → List String) :
    Prop where
  held : ∀ i, ∀ k ∈ Ks i, views.any (·.1 == k) = true
  nodup : ∀ i, (Ks i).Nodup
  disjoint : ∀ i j, i ≠ j → ∀ k ∈ Ks i, k ∉ Ks j
  rest : ∀ v ∈ views, v ∈ s₀.views ∨ Held Ks v.1

/-- The views' and the store's parts of the invariant. -/
structure PartsOk (s₀ : Store) (s : Store) (Ks : Fin n → List String) : Prop where
  views : ViewsOk s₀ s.views Ks
  store : StoreOk fromBytes (requested jobs) s

/-- **The invariant of the system**: each builder that may run is safe holding its views, a
builder of the empty list only Stats and holds none, and the views' and the store's parts
hold. -/
structure Inv (s₀ : Store) (S : Sys jobs) (Ks : Fin n → List String) : Prop where
  safe : ∀ i, (jobs i).Valid →
    Safe fromBytes (requested jobs) (JobDone fromBytes (jobs i)) (S.progs i) S.store (Ks i)
  empty : ∀ i, ¬ (jobs i).Valid → (jobs i).EmptyAt fromBytes (S.progs i) ∧ Ks i = []
  parts : PartsOk fromBytes jobs s₀ S.store Ks

variable {fromBytes} {jobs}

theorem mem_requested (i : Fin n) : (jobs i).layers.map (·.blob.digest) ∈ requested jobs :=
  (List.mem_ofFn _ _).2 ⟨i, rfl⟩

/-- **The invariant holds at the start**, from a store whose part holds. -/
theorem Inv.init (hH : ∀ x, fromBytes x ≠ "") (hd : ∀ i, ∀ a ∈ (jobs i).layers, a.blob.digest ≠ "")
    {fuel : Nat} (hfuel : ∀ i, (jobs i).layers.length < fuel)
    {s₀ : Store} (hs₀ : StoreOk fromBytes (requested jobs) s₀) :
    Inv fromBytes jobs s₀ (Sys.init fromBytes jobs fuel s₀) fun _ => [] := by
  have hd' : ∀ l ∈ requested jobs, ∀ d ∈ l, d ≠ "" := by
    intro l hl d hdl
    obtain ⟨i, rfl⟩ := (List.mem_ofFn _ _).1 hl
    obtain ⟨a, ha, rfl⟩ := List.mem_map.1 hdl
    exact hd i a ha
  exact ⟨fun i hv => safe_job hH hd' hv (mem_requested i) (hfuel i) s₀,
    fun i hv => ⟨Job.emptyAt_prog hv (hfuel i), rfl⟩,
    ⟨⟨by simp, by simp, by simp, fun v hv => .inl hv⟩, hs₀⟩⟩

namespace ViewsOk

variable {s₀ : Store} {views : List (String × String)} {Ks : Fin n → List String}
  (h : ViewsOk s₀ views Ks)
include h

/-- A Prepare on a fresh key: its builder holds the new view. -/
theorem add {key : String} (hfresh : views.any (·.1 == key) = false) (i : Fin n) (parent : String) :
    ViewsOk s₀ ((key, parent) :: views) (Function.update Ks i (key :: Ks i)) := by
  have hnot : ∀ j, key ∉ Ks j := fun j hk => by simp [h.held j key hk] at hfresh
  have hsub : ∀ j, ∀ k ∈ Ks j, k ∈ Function.update Ks i (key :: Ks i) j := fun j k hk => by
    by_cases hj : j = i
    · subst hj; simp [hk]
    · simp [Function.update_noteq hj, hk]
  have hmem : ∀ j k, k ∈ Function.update Ks i (key :: Ks i) j → (j = i ∧ k = key) ∨ k ∈ Ks j :=
    fun j k hk => by
      by_cases hj : j = i
      · subst hj; simpa using hk
      · simp only [Function.update_noteq hj] at hk; exact .inr hk
  refine ⟨fun j k hk => ?_, fun j => ?_, fun j₁ j₂ hj k hk₁ hk₂ => ?_, ?_⟩
  · rcases hmem j k hk with ⟨-, rfl⟩ | hk
    · simp
    · simp [h.held j k hk]
  · by_cases hj : j = i
    · subst hj; simpa using ⟨hnot j, h.nodup j⟩
    · simpa [Function.update_noteq hj] using h.nodup j
  · rcases hmem j₁ k hk₁ with ⟨rfl, rfl⟩ | hm₁ <;> rcases hmem j₂ k hk₂ with ⟨rfl, e⟩ | hm₂
    · exact hj rfl
    · exact hnot j₂ hm₂
    · exact hnot j₁ (e ▸ hm₁)
    · exact h.disjoint j₁ j₂ hj k hm₁ hm₂
  · intro v hv
    rcases List.mem_cons.1 hv with rfl | hv
    · exact .inr ⟨i, by simp⟩
    · exact (h.rest v hv).imp_right fun ⟨j, hj⟩ => ⟨j, hsub j _ hj⟩

/-- A Commit or Remove of a view its builder holds: the builder no longer holds it, and it is
gone. -/
theorem release {i : Fin n} {key : String} (hk : key ∈ Ks i) :
    ViewsOk s₀ (views.filter (·.1 != key)) (Function.update Ks i ((Ks i).erase key)) := by
  have hmem : ∀ j k, k ∈ Function.update Ks i ((Ks i).erase key) j → k ≠ key ∧ k ∈ Ks j :=
    fun j k hk' => by
      by_cases hj : j = i
      · subst hj; simpa using (h.nodup j).mem_erase_iff.1 (by simpa using hk')
      · simp only [Function.update_noteq hj] at hk'
        exact ⟨fun e => h.disjoint i j (Ne.symm hj) key hk (e ▸ hk'), hk'⟩
  refine ⟨fun j k hk' => ?_, fun j => ?_, fun j₁ j₂ hj k hk₁ hk₂ => ?_, ?_⟩
  · obtain ⟨hne, hk'⟩ := hmem j k hk'
    rw [hasView_filter_ne hne]
    exact h.held j k hk'
  · by_cases hj : j = i
    · subst hj; simpa using (h.nodup j).erase key
    · simpa [Function.update_noteq hj] using h.nodup j
  · exact h.disjoint j₁ j₂ hj k (hmem j₁ k hk₁).2 (hmem j₂ k hk₂).2
  · intro v hv
    obtain ⟨hv, hne⟩ := List.mem_filter.1 hv
    refine (h.rest v hv).imp_right fun ⟨j, hj⟩ => ⟨j, ?_⟩
    by_cases hji : j = i
    · subst hji; simpa using List.mem_erase_of_ne (by simpa using hne) |>.2 hj
    · simpa [Function.update_noteq hji] using hj

end ViewsOk

namespace StoreOk

variable {req : List (List Digest)} {s : Store} (h : StoreOk fromBytes req s)
include h

theorem views (views : List (String × String)) : StoreOk fromBytes req ⟨s.committed, views⟩ :=
  ⟨h.nodup, h.closed⟩

/-- A Commit of a name within the guarantee keeps the store's part, when no two requested
prefixes share a chain ID. -/
theorem commit (hinj : ∀ c c', Requested req c → Requested req c' →
      chainID fromBytes c = chainID fromBytes c' → c = c')
    {name : String} (hn : s.has name = false) (hg : GoodName fromBytes req s name)
    (parent : String) (views : List (String × String)) :
    StoreOk fromBytes req ⟨(name, parent) :: s.committed, views⟩ := by
  refine ⟨?_, fun c hc hne hhas => ?_⟩
  · refine List.nodup_cons.2 ⟨fun hmem => ?_, h.nodup⟩
    obtain ⟨x, hx, rfl⟩ := List.mem_map.1 hmem
    simp only [Store.has, List.any_eq_false, beq_iff_eq] at hn
    exact hn x hx rfl
  · simp only [Store.has_cons, Bool.or_eq_true, beq_iff_eq] at hhas ⊢
    rcases hhas with e | hhas
    · obtain ⟨c₀, hc₀, rfl, hp⟩ := hg
      obtain rfl := hinj c c₀ hc hc₀ e.symm
      exact .inr (hp hne)
    · exact .inr (h.closed c hc hne hhas)

end StoreOk

/-- **Every step of the system keeps the invariant**: the builder that moves stays safe by its
own safety, the others by their rely, which its guarantee meets; its guarantee keeps the views'
and the store's parts.  A step of a builder of the empty list is a Stat, which changes
nothing. -/
theorem Inv.step (hinj : ∀ c c', Requested (requested jobs) c → Requested (requested jobs) c' →
      chainID fromBytes c = chainID fromBytes c' → c = c')
    {s₀ : Store} {S S' : Sys jobs} {Ks : Fin n → List String} (hI : Inv fromBytes jobs s₀ S Ks)
    (hS : Step jobs S S') : ∃ Ks', Inv fromBytes jobs s₀ S' Ks' := by
  obtain ⟨i, q, k, a, hp, ha, hprogs⟩ := hS
  have other : ∀ j, j ≠ i → S'.progs j = S.progs j := fun j hj => by
    rw [hprogs, Function.update_noteq hj]
  by_cases hv : (jobs i).Valid
  swap
  · obtain ⟨hs, -, hnext⟩ := (hI.empty i hv).1.step hp ha (Ks i)
    refine ⟨Ks, fun j hj => ?_, fun j hj => ?_, hs ▸ hI.parts⟩
    · rw [other j fun e => hv (e ▸ hj), hs]
      exact hI.safe j hj
    · by_cases hji : j = i
      · subst hji
        rw [hprogs, Function.update_same]
        exact ⟨hnext, (hI.empty j hj).2⟩
      · rw [other j hji]
        exact hI.empty j hj
  have hsafe := hI.safe i hv
  rw [hp] at hsafe
  obtain ⟨hg, hnext⟩ := hsafe S.store (Rely.refl _ _)
  refine ⟨Function.update Ks i (q.holds (Ks i) a), fun j hj => ?_, fun j hj => ?_, ?_⟩
  · by_cases hji : j = i
    · subst hji
      rw [hprogs, Function.update_same, Function.update_same]
      exact hnext a _ ha
    · rw [other j hji, Function.update_noteq hji]
      exact (hI.safe j hj).rely (fun _ _ _ _ hR h => JobDone.rely hR h) ⟨fun _ => ha.has,
        fun key hk => ha.lookup hg (hI.parts.views.disjoint j i hji key hk)
          (hI.parts.views.held j key hk)⟩
  · have hji : j ≠ i := fun e => hj (e ▸ hv)
    rw [other j hji, Function.update_noteq hji]
    exact hI.empty j hj
  rcases ha.effect (Ks i) with ⟨hs', hK⟩ | ⟨key, parent, rfl, hfresh, hs', hK⟩ |
      ⟨name, key, parent, rfl, hn, hs', hK⟩ | ⟨key, rfl, hs', hK⟩ <;>
    rw [hs', hK]
  · rw [Function.update_eq_self]
    exact ⟨hI.parts.views, hI.parts.store⟩
  · exact ⟨hI.parts.views.add hfresh i parent, hI.parts.store.views _⟩
  · exact ⟨hI.parts.views.release hg.1, hI.parts.store.commit hinj hn hg.2 parent _⟩
  · exact ⟨hI.parts.views.release hg, hI.parts.store.views _⟩

/-- The states the system reaches from `start`. -/
inductive Reach (start : Sys jobs) : Sys jobs → Prop
  | start : Reach start start
  | step {S S' : Sys jobs} : Reach start S → Step jobs S S' → Reach start S'

/-- One more call of builder `i`, answered `a`. -/
theorem Reach.call {start S : Sys jobs} (h : Reach start S) (i : Fin n) {q : Query}
    {k : Answer q → Prog (jobs i).Result} (hp : S.progs i = .call q k) (a : Answer q) {s' : Store}
    (ha : Answers S.store q a s') : Reach start ⟨s', Function.update S.progs i (k a)⟩ :=
  .step h ⟨i, q, k, a, hp, ha, rfl⟩

/-- The invariant holds in every state the system reaches. -/
theorem Inv.reach (hH : ∀ x, fromBytes x ≠ "") (hd : ∀ i, ∀ a ∈ (jobs i).layers, a.blob.digest ≠ "")
    {fuel : Nat} (hfuel : ∀ i, (jobs i).layers.length < fuel)
    (hinj : ∀ c c', Requested (requested jobs) c → Requested (requested jobs) c' →
      chainID fromBytes c = chainID fromBytes c' → c = c')
    {s₀ : Store} (hs₀ : StoreOk fromBytes (requested jobs) s₀) {S : Sys jobs}
    (hS : Reach (Sys.init fromBytes jobs fuel s₀) S) : ∃ Ks, Inv fromBytes jobs s₀ S Ks := by
  induction hS with
  | start => exact ⟨_, Inv.init hH hd hfuel hs₀⟩
  | step _ hstep ih =>
    obtain ⟨Ks, hI⟩ := ih
    exact hI.step hinj hstep

/-- A safe program that has stopped has returned. -/
theorem Safe.done {req : List (List Digest)} {β : Type} {Q : β → Store → List String → Prop}
    {p : Prog β} {s : Store} {K : List String} (h : Safe fromBytes req Q p s K)
    (hp : ∀ q k, p ≠ .call q k) : ∃ b, p = .pure b ∧ Q b s K := by
  cases p with
  | pure b => exact ⟨b, rfl, h⟩
  | call q k => exact absurd rfl (hp q k)
  | panic m => exact h.elim
  | cut => exact h.elim

/-- The empty store's part holds. -/
theorem storeOk_empty (fromBytes : String → Digest) (req : List (List Digest)) :
    StoreOk fromBytes req ⟨[], []⟩ :=
  ⟨List.nodup_nil, fun c _ _ h => by simp [Store.has] at h⟩

/-- With a requested list committed, so is every non-empty prefix of it. -/
theorem StoreOk.has_take {req : List (List Digest)} {s : Store} (h : StoreOk fromBytes req s)
    {l : List Digest} (hl : l ∈ req) (hfull : s.has (chainID fromBytes l) = true) :
    ∀ k, 0 < k → k ≤ l.length → s.has (chainID fromBytes (l.take k)) = true := by
  have key : ∀ d k, k + d = l.length → 0 < k → s.has (chainID fromBytes (l.take k)) = true := by
    intro d
    induction d with
    | zero =>
      intro k hk _
      obtain rfl : k = l.length := by omega
      rw [List.take_length]
      exact hfull
    | succ d ih =>
      intro k hk hk0
      have hlt : k < l.length := by omega
      have := h.closed (l.take (k + 1))
        ⟨by rw [← List.length_pos, List.length_take]; omega, l, hl, List.take_prefix _ _⟩
        (by rw [take_succ_dropLast hlt, ← List.length_pos, List.length_take]; omega)
        (ih (k + 1) (by omega) (by omega))
      rwa [take_succ_dropLast hlt] at this
  exact fun k hk0 hkl => key (l.length - k) k (by omega) hk0

/-! ### Termination and progress -/

/-- `p'` is where the call `p` goes on after some answer. -/
def Prog.Next {α : Type} (p' p : Prog α) : Prop := ∃ q k a, p = .call q k ∧ p' = k a

/-- A program makes finitely many calls along every path of answers. -/
theorem Prog.next_wf {α : Type} : WellFounded (@Prog.Next α) := by
  refine ⟨fun p => ?_⟩
  induction p with
  | call q k ih => exact ⟨_, fun _ ⟨_, _, a, h, e⟩ => by cases h; exact e ▸ ih a⟩
  | _ => exact ⟨_, fun _ ⟨_, _, _, h, _⟩ => by cases h⟩

/-- A step moves one builder on and leaves the others where they are. -/
theorem Step.lex {S S' : Sys jobs} (h : Step jobs S S') :
    Pi.Lex (· < ·) (fun {_} => Prog.Next) S'.progs S.progs := by
  obtain ⟨i, q, k, a, hp, -, he⟩ := h
  exact ⟨i, fun j hj => by rw [he, Function.update_noteq hj.ne],
    q, k, a, hp, by rw [he, Function.update_same]⟩

/-- Every run of the system is finite. -/
theorem step_wf : WellFounded fun S' S : Sys jobs => Step jobs S S' :=
  Subrelation.wf Step.lex (InvImage.wf Sys.progs (Pi.Lex.wellFounded _ fun _ => Prog.next_wf))

/-- The store answers every call but a Prepare on a key that a view has. -/
theorem Answers.exists_of_fresh (s : Store) (q : Query)
    (hq : ∀ key parent, q = .prepare key parent → s.hasView key = false) :
    ∃ a s', Answers s q a s' := by
  cases q with
  | stat => exact ⟨_, _, rfl, rfl⟩
  | prepare key parent => exact ⟨_, _, hq key parent rfl, rfl, rfl⟩
  | commit => exact ⟨_, _, rfl, rfl⟩
  | remove => exact ⟨_, _, rfl, rfl⟩
  | apply desc => exact ⟨.ok desc, s, ⟨desc, rfl, rfl⟩, rfl⟩
  | update => exact ⟨none, s, rfl, rfl⟩
  | _ => exact ⟨default, s, rfl⟩

/-- No builder is about to Prepare a key that a view has: the build keys do not collide. -/
def Sys.KeysFresh (S : Sys jobs) : Prop :=
  ∀ i q k, S.progs i = .call q k → ∀ key parent, q = .prepare key parent →
    S.store.hasView key = false

/-- Where the system can take no step and the build keys do not collide, every builder has
stopped. -/
theorem Sys.stopped {S : Sys jobs} (hs : ∀ S', ¬ Step jobs S S') (hf : S.KeysFresh) (i : Fin n)
    (q : Query) (k : Answer q → Prog (jobs i).Result) : S.progs i ≠ .call q k := fun hp =>
  let ⟨a, s', ha⟩ := Answers.exists_of_fresh _ q (hf i q k hp)
  hs ⟨s', Function.update S.progs i (k a)⟩ ⟨i, q, k, a, hp, ha, rfl⟩

/-- Two builders on lists that share the prefix `[sha256:a]`: `ApplyArtifactsWithOpts` on
`[sha256:a, sha256:b]`, and the per-layer loop of `Unpack` on `[sha256:a]`. -/
def pairJobs : Fin 2 → Job
  | 0 => .whole [⟨⟨"t", "sha256:a", 1⟩⟩, ⟨⟨"t", "sha256:b", 1⟩⟩]
  | 1 => .perLayer [⟨⟨"t", "sha256:a", 1⟩⟩]

/-- The prefixes the two builders ask for. -/
theorem requested_pair {c : List Digest} (h : Requested (requested pairJobs) c) :
    c = ["sha256:a"] ∨ c = ["sha256:a", "sha256:b"] := by
  obtain ⟨hc, l, hl, hp⟩ := h
  simp only [requested, List.mem_ofFn, Set.mem_range] at hl
  obtain ⟨⟨_ | _ | i, hi⟩, rfl⟩ := hl
  · simp only [pairJobs, Job.layers, List.map_cons, List.map_nil, List.prefix_cons_iff,
      List.prefix_nil] at hp
    rcases hp with rfl | ⟨t, rfl, rfl | ⟨t', rfl, rfl⟩⟩
    exacts [absurd rfl hc, .inl rfl, .inr rfl]
  · simp only [pairJobs, Job.layers, List.map_cons, List.map_nil, List.prefix_cons_iff,
      List.prefix_nil] at hp
    rcases hp with rfl | ⟨t, rfl, rfl⟩
    exacts [absurd rfl hc, .inl rfl]
  · omega

theorem pairJobs_fuel : ∀ i, (pairJobs i).layers.length < 3 := by decide

theorem pairJobs_digests : ∀ i, ∀ a ∈ (pairJobs i).layers, a.blob.digest ≠ "" := by decide

/-- Under the hash that gives `h` for every text, the two prefixes have distinct chain IDs,
`sha256:a` and `h`. -/
theorem pairJobs_inj : ∀ c c', Requested (requested pairJobs) c →
    Requested (requested pairJobs) c' → chainID (fun _ => "h") c = chainID (fun _ => "h") c' →
      c = c' := by
  intro c c' hc hc' e
  rcases requested_pair hc with rfl | rfl <;> rcases requested_pair hc' with rfl | rfl
  all_goals first | rfl | exact absurd e (by decide)

/-- A builder of `ApplyArtifactsWithOpts` on the empty list beside one on `[sha256:a]`. -/
def emptyPairJobs : Fin 2 → Job
  | 0 => .whole []
  | 1 => .whole [⟨⟨"t", "sha256:a", 1⟩⟩]

end System

end AttributesClient
