import AttributesClient.Prog

/-!
# Building a chain of snapshots (`aritfact/artifact.go`)

`applyArtifacts` makes the snapshot of a chain of layers: it asks the snapshotter for a view on
the parent chain, builds the missing ancestors first when the parent is not there, applies the
last layer onto the view, checks the digest the applier reports, commits the view under the
chain ID, and removes the view on every error after a successful prepare.
`applyArtifactsWithOpts` and `applyArtifactWithOpts` are its entry points: the first builds a
whole layer list, the second one layer on a chain already built (as `image.Unpack` calls it).

The loop of `applyArtifacts` may turn forever on Already-Exists answers; in the model it is
bounded by `fuel`, and running out of fuel is the leaf `Prog.cut`, never a return.

Results:

* `FrameOk` is what every frame of the recursion keeps; `FrameOk.child` passes it down and
  `applyArtifacts_of_frameOk` evaluates a frame's slices under it;
* `applyArtifacts_never_panics`: under `FrameOk` no slice or index is out of range, so neither
  entry point panics on a non-empty list (`applyArtifactWithOpts_never_panics`);
* `applyArtifactsWithOpts_nil_panics`: on the empty list, when the snapshotter does not know the
  empty chain ID, the frame slices `chain[:-1]` and panics.
-/

namespace AttributesClient

/-! ### The unique part of a key -/

/-- `base64.URLEncoding.EncodeToString` of three bytes: four characters, no padding. -/
def base64URL3 (b : UInt8 × UInt8 × UInt8) : String :=
  let n := b.1.toNat * 65536 + b.2.1.toNat * 256 + b.2.2.toNat
  let alphabet := "ABCDEFGHIJKLMNOPQRSTUVWXYZabcdefghijklmnopqrstuvwxyz0123456789-_".data
  ⟨[n / 262144, n / 4096 % 64, n / 64 % 64, n % 64].map fun i => alphabet.getD i 'A'⟩

/-- The text `uniquePart` makes of the clock's nanoseconds and three random bytes: `"%d-%s"`. -/
def uniqueText (tb : Nat × UInt8 × UInt8 × UInt8) : String :=
  toString tb.1 ++ "-" ++ base64URL3 tb.2

/-- `uniquePart` (lines 146–152). -/
def uniquePart : Prog String := .call .nowAndRandom fun tb => .pure (uniqueText tb)

/-- `fmt.Sprintf(snapshots.UnpackKeyFormat, uniquePart(), chainID)`, the format being
`"extract-%s %s"`. -/
def unpackKey (unique chainID : String) : String := "extract-" ++ unique ++ " " ++ chainID

/-! ### `applyArtifacts` -/

/-- Lines 128–143: apply the layer onto the prepared view, check the digest the applier
reports, and commit the view under `chainID`; the error the frame returns. -/
def applyAndCommit (chainID key : String) (artifact : Artifact) (mounts : List Mount) :
    Prog (Option Error) :=
  .call (.apply artifact.blob mounts) fun
    | .error e => .pure (some (.wrap ("failed to extract layer " ++ artifact.blob.digest) e))
    | .ok diff =>
      if diff.digest ≠ artifact.blob.digest then
        .pure (some (.new ("wrong diff id calculated on extraction " ++ quote diff.digest)))
      else
        .call (.commit chainID key) fun
          | some e => .pure (some (.wrap ("failed to commit snapshot " ++ key) e))
          | none => .pure none

/-- The deferred cleanup of lines 116–126: when the frame returns an error, the prepared view
is removed; the removal's own error is only logged. -/
def cleanup (key : String) : Option Error → Prog (Option Error)
  | none => .pure none
  | some e => .call (.remove key) fun _ => .pure (some e)

/-- The body of the `if err != nil` of lines 95–113: what a turn of the loop does with
Prepare's answer for `key`.  `next` is the loop's next turn, `rec` the recursive call. -/
def prepareNext (next : List Artifact → Prog (Except Error (String × List Mount)))
    (rec : List Artifact → List Digest → Prog (Option Error)) (pchain : List Digest)
    (artifacts : List Artifact) (key : String) :
    Except Error (List Mount) → Prog (Except Error (String × List Mount))
  | .ok mounts => .pure (.ok (key, mounts))
  | .error err =>
    if IsNotFound err && 1 < artifacts.length then
      rec (artifacts.take (artifacts.length - 1)) pchain >>= fun
        | some e => if IsAlreadyExists e then next [] else .pure (.error e)
        | none => next []
    else if IsAlreadyExists err then next artifacts
    else .pure (.error (.wrap ("failed to prepare extraction snapshot " ++ quote key) err))

/-- The `for` loop of lines 90–115.  Each turn mints a key and asks for a view on `parent`.
When the parent is missing and more than one artifact is left, the ancestors are built first
(`rec`, the recursive call of line 97, on `artifacts[:len-1]` and the parent chain `pchain`)
and `artifacts` becomes `nil`, so that this happens at most once; on Already-Exists a new key
is tried.  It returns the accepted key and the view's mounts; `n` bounds the turns. -/
def prepareLoop (rec : List Artifact → List Digest → Prog (Option Error))
    (pchain : List Digest) (parent chainID : String) :
    Nat → List Artifact → Prog (Except Error (String × List Mount))
  | 0, _ => .cut
  | n + 1, artifacts =>
    uniquePart >>= fun u =>
    .call (.prepare (unpackKey u chainID) parent)
      (prepareNext (prepareLoop rec pchain parent chainID n) rec pchain artifacts
        (unpackKey u chainID))

/-- What a frame does after the loop: return the loop's error, or apply and commit on the
accepted view and clean up. -/
def frameRest (chainID : String) (artifact : Artifact) :
    Except Error (String × List Mount) → Prog (Option Error)
  | .error e => .pure (some e)
  | .ok (key, mounts) => applyAndCommit chainID key artifact mounts >>= cleanup key

section

variable (fromBytes : String → Digest)

/-- `applyArtifacts` (lines 79–144).  The variable block slices `chain[:len(chain)-1]` and
indexes `artifacts[len(artifacts)-1]` before anything else, and panics when either is out of
range. -/
def applyArtifacts : Nat → List Artifact → List Digest → Prog (Option Error)
  | 0, _, _ => .cut
  | fuel + 1, artifacts, chain =>
    match sliceTo chain (chain.length - 1) with
    | none => .panic "slice bounds out of range"
    | some pchain =>
      match index artifacts (artifacts.length - 1) with
      | none => .panic "index out of range"
      | some artifact =>
        prepareLoop (applyArtifacts fuel) pchain (chainID fromBytes pchain)
          (chainID fromBytes chain) fuel artifacts >>= frameRest (chainID fromBytes chain) artifact

/-- `ApplyArtifactsWithOpts` (lines 28–50), and `ApplyArtifacts`, which passes no options.  On
an error the Go function returns `""` beside it. -/
def applyArtifactsWithOpts (fuel : Nat) (artifacts : List Artifact) :
    Prog (Except Error Digest) :=
  let chain := artifacts.map (·.blob.digest)
  .call (.stat (chainID fromBytes chain)) fun
    | none => .pure (.ok (chainID fromBytes chain))
    | some err =>
      if !IsNotFound err then
        .pure (.error (.wrap ("failed to stat snapshot " ++ chainID fromBytes chain) err))
      else
        applyArtifacts fromBytes fuel artifacts chain >>= fun
          | some e => .pure (if IsAlreadyExists e then .ok (chainID fromBytes chain) else .error e)
          | none => .pure (.ok (chainID fromBytes chain))

/-- `ApplyArtifactWithOpts` (lines 56–77), and `ApplyArtifact`: build the snapshot of `chain`
with `artifact` on top; the result says whether this call applied the layer.  On an error the
Go function returns `false` beside it. -/
def applyArtifactWithOpts (fuel : Nat) (artifact : Artifact) (chain : List Digest) :
    Prog (Except Error Bool) :=
  .call (.stat (chainID fromBytes (chain ++ [artifact.blob.digest]))) fun
    | none => .pure (.ok false)
    | some err =>
      if !IsNotFound err then
        .pure (.error (.wrap ("failed to stat snapshot " ++
          chainID fromBytes (chain ++ [artifact.blob.digest])) err))
      else
        applyArtifacts fromBytes fuel [artifact] (chain ++ [artifact.blob.digest]) >>= fun
          | some e => .pure (if IsAlreadyExists e then .ok false else .error e)
          | none => .pure (.ok true)

/-! ### The frame invariant -/

/-- What every frame of the recursion keeps: there is an artifact, and the artifacts' digests
end the chain, so the last artifact is the chain's last layer. -/
def FrameOk (artifacts : List Artifact) (chain : List Digest) : Prop :=
  artifacts ≠ [] ∧ artifacts.map (·.blob.digest) <:+ chain

theorem frameOk_map {artifacts : List Artifact} (h : artifacts ≠ []) :
    FrameOk artifacts (artifacts.map (·.blob.digest)) :=
  ⟨h, List.suffix_refl _⟩

theorem frameOk_single (artifact : Artifact) (chain : List Digest) :
    FrameOk [artifact] (chain ++ [artifact.blob.digest]) :=
  ⟨List.cons_ne_nil _ _, List.suffix_append _ _⟩

namespace FrameOk

variable {artifacts : List Artifact} {chain : List Digest}

theorem chain_ne_nil (h : FrameOk artifacts chain) : chain ≠ [] := by
  rintro rfl
  exact h.1 (List.map_eq_nil_iff.1 (List.suffix_nil.1 h.2))

theorem length_le (h : FrameOk artifacts chain) : artifacts.length ≤ chain.length := by
  simpa using h.2.length_le

theorem getLast_eq (h : FrameOk artifacts chain) :
    chain.getLast? = some (artifacts.getLast h.1).blob.digest := by
  obtain ⟨t, rfl⟩ := h.2
  simp [List.getLast?_eq_getLast _ h.1]

/-- The recursive call of line 97 keeps the invariant. -/
theorem child (h : FrameOk artifacts chain) (h1 : 1 < artifacts.length) :
    FrameOk (artifacts.take (artifacts.length - 1)) chain.dropLast := by
  rw [← List.dropLast_eq_take]
  refine ⟨fun e => by simp only [← List.length_eq_zero, List.length_dropLast] at e; omega, ?_⟩
  obtain ⟨t, rfl⟩ := h.2
  exact ⟨t, by simp [List.map_dropLast, h.1]⟩

end FrameOk

/-! ### Runs of the loop -/

section Loop

variable {rec : List Artifact → List Digest → Prog (Option Error)} {pchain : List Digest}
  {parent chainID : String} {artifacts : List Artifact}

/-- The loop panics only where the recursive call panics. -/
theorem prepareLoop_never_panics
    (hrec : 1 < artifacts.length →
      ∀ es m, ¬ Prog.Runs (rec (artifacts.take (artifacts.length - 1)) pchain) es (.panic m))
    (n : Nat) {arts : List Artifact} (harts : arts = artifacts ∨ arts = []) {es : List Event}
    {m : String} : ¬ Prog.Runs (prepareLoop rec pchain parent chainID n arts) es (.panic m) := by
  induction n generalizing arts es with
  | zero => simp [prepareLoop]
  | succ n ih =>
    intro h
    simp only [prepareLoop, uniquePart, Prog.call_bind, Prog.pure_bind', Prog.runs_call] at h
    rcases h with ⟨-, ⟨⟩⟩ | ⟨tb, es, -, ⟨-, ⟨⟩⟩ | ⟨a, es, -, h⟩⟩
    cases a with
    | ok ms => simp [prepareNext] at h
    | error err =>
      simp only [prepareNext] at h
      split_ifs at h with h1 h2
      · obtain rfl : arts = artifacts := harts.resolve_right fun e => by simp [e] at h1
        rcases h.of_bind_panic with h | ⟨b, es₁, es₂, -, -, h⟩
        · exact hrec (by simp at h1; exact h1.2) _ _ h
        · rcases b with _ | e
          · exact ih (.inr rfl) h
          · simp only at h
            split_ifs at h
            · exact ih (.inr rfl) h
            · simp at h
      · exact ih harts h
      · simp at h

end Loop

/-- Under the invariant the slices of a frame are in range. -/
theorem applyArtifacts_of_frameOk {fuel : Nat} {artifacts : List Artifact} {chain : List Digest}
    (h : FrameOk artifacts chain) :
    applyArtifacts fromBytes (fuel + 1) artifacts chain =
      (prepareLoop (applyArtifacts fromBytes fuel) chain.dropLast
        (chainID fromBytes chain.dropLast) (chainID fromBytes chain) fuel artifacts >>=
        frameRest (chainID fromBytes chain) (artifacts.getLast h.1)) := by
  rw [applyArtifacts, sliceTo_pred h.chain_ne_nil, index_pred h.1]

/-- What follows the loop panics nowhere. -/
theorem frameRest_never_panics {cid : String} {artifact : Artifact}
    {x : Except Error (String × List Mount)} {es : List Event} {m : String} :
    ¬ Prog.Runs (frameRest cid artifact x) es (.panic m) := by
  intro h
  rcases x with e | ⟨key, mounts⟩
  · simp [frameRest] at h
  · rcases (Prog.Runs.of_bind_panic h) with h | ⟨b, es₁, es₂, -, -, h⟩
    · simp only [applyAndCommit, Prog.runs_call] at h
      rcases h with ⟨-, ⟨⟩⟩ | ⟨a, es, -, h⟩
      rcases a with e | d
      · simp at h
      · simp only at h
        split_ifs at h
        · simp at h
        · rcases (Prog.runs_call.1 h) with ⟨-, ⟨⟩⟩ | ⟨a, es, -, h⟩
          rcases a with _ | e <;> simp at h
    · rcases b with _ | e
      · simp [cleanup] at h
      · rcases (Prog.runs_call.1 h) with ⟨-, ⟨⟩⟩ | ⟨a, es, -, h⟩
        simp at h

/-- **No slice or index of a frame is out of range**: from a frame that keeps `FrameOk`,
every frame the recursion reaches keeps it, and no run panics. -/
theorem applyArtifacts_never_panics :
    ∀ fuel {artifacts : List Artifact} {chain : List Digest}, FrameOk artifacts chain →
      ∀ {es : List Event} {m : String},
        ¬ Prog.Runs (applyArtifacts fromBytes fuel artifacts chain) es (.panic m)
  | 0, _, _, _, _, _ => by simp [applyArtifacts]
  | fuel + 1, artifacts, chain, h, es, m => by
    rw [applyArtifacts_of_frameOk fromBytes h]
    intro hr
    rcases hr.of_bind_panic with hr | ⟨b, es₁, es₂, -, -, hr⟩
    · exact prepareLoop_never_panics
        (fun h1 _ _ => applyArtifacts_never_panics fuel (h.child h1)) fuel (.inl rfl) hr
    · exact frameRest_never_panics hr

/-- An entry point's continuation after `applyArtifacts` panics nowhere. -/
private theorem entry_never_panics {β : Type} {p : Prog (Option Error)} {f : Option Error → Prog β}
    (hp : ∀ es m, ¬ Prog.Runs p es (.panic m)) (hf : ∀ x, ∃ b, f x = .pure b)
    {es : List Event} {m : String} : ¬ Prog.Runs (p >>= f) es (.panic m) := by
  intro h
  rcases h.of_bind_panic with h | ⟨x, es₁, es₂, -, -, h⟩
  · exact hp _ _ h
  · obtain ⟨b, e⟩ := hf x
    simp [e] at h

/-- **The entry points never panic on what `image.Unpack` and a non-empty layer list give
them**: `applyArtifactWithOpts` on any chain, `applyArtifactsWithOpts` on a non-empty list,
under every answer of the snapshotter and the applier. -/
theorem applyArtifacts_entries_never_panic (fuel : Nat) (artifact : Artifact)
    (chain : List Digest) (artifacts : List Artifact) (h : artifacts ≠ []) (es : List Event)
    (m : String) :
    ¬ Prog.Runs (applyArtifactWithOpts fromBytes fuel artifact chain) es (.panic m) ∧
      ¬ Prog.Runs (applyArtifactsWithOpts fromBytes fuel artifacts) es (.panic m) := by
  constructor <;> intro hr <;> rcases Prog.runs_call.1 hr with ⟨-, ⟨⟩⟩ | ⟨a, es, -, hr⟩ <;>
    rcases a with _ | err <;> simp only at hr <;> try simp at hr
  all_goals split_ifs at hr
  · simp at hr
  · refine entry_never_panics (fun _ _ => applyArtifacts_never_panics fromBytes fuel
      (frameOk_single artifact chain)) (fun x => ?_) hr
    rcases x with _ | e <;> exact ⟨_, rfl⟩
  · simp at hr
  · refine entry_never_panics (fun _ _ => applyArtifacts_never_panics fromBytes fuel
      (frameOk_map h)) (fun x => ?_) hr
    rcases x with _ | e <;> exact ⟨_, rfl⟩

/-- A full run of a build of two layers from an empty store, in which the first Prepare finds
no parent, so that the frame builds the first layer before the second. -/
theorem applyArtifacts_entries_never_panic_two :
    ∃ es : List Event, es =
        [⟨.stat "a b", some (.sentinel .notFound)⟩, ⟨.nowAndRandom, (0, 0, 0, 0)⟩,
          ⟨.prepare "extract-0-AAAA a b" "a", .error (.sentinel .notFound)⟩,
          ⟨.nowAndRandom, (0, 0, 0, 0)⟩, ⟨.prepare "extract-0-AAAA a" "", .ok []⟩,
          ⟨.apply ⟨"t", "a", 1⟩ [], .ok ⟨"t", "a", 1⟩⟩, ⟨.commit "a" "extract-0-AAAA a", none⟩,
          ⟨.nowAndRandom, (0, 0, 0, 0)⟩, ⟨.prepare "extract-0-AAAA a b" "a", .ok []⟩,
          ⟨.apply ⟨"t", "b", 1⟩ [], .ok ⟨"t", "b", 1⟩⟩,
          ⟨.commit "a b" "extract-0-AAAA a b", none⟩] ∧
      Prog.Runs (applyArtifactsWithOpts id 3 [⟨⟨"t", "a", 1⟩⟩, ⟨⟨"t", "b", 1⟩⟩]) es
        (.pure (.ok "a b")) ∧
      [(⟨⟨"t", "a", 1⟩⟩ : Artifact), ⟨⟨"t", "b", 1⟩⟩] ≠ [] ∧
      (¬ Prog.Runs (applyArtifactWithOpts id 3 ⟨⟨"t", "b", 1⟩⟩ ["a"]) es
          (.panic "slice bounds out of range") ∧
        ¬ Prog.Runs (applyArtifactsWithOpts id 3 [⟨⟨"t", "a", 1⟩⟩, ⟨⟨"t", "b", 1⟩⟩]) es
          (.panic "slice bounds out of range")) :=
  ⟨_, rfl, .call (.call (.call (.call (.call (.call (.call (.call (.call (.call (.call
    (.refl _))))))))))), List.cons_ne_nil _ _,
    applyArtifacts_entries_never_panic id 3 ⟨⟨"t", "b", 1⟩⟩ ["a"] _ (List.cons_ne_nil _ _) _ _⟩

/-- **On the empty layer list `applyArtifactsWithOpts` panics**: the chain ID of no layers is
the empty sentinel, and when the snapshotter answers Not-Found for it the frame slices
`chain[:len(chain)-1]` with `len(chain) = 0`. -/
theorem applyArtifactsWithOpts_nil_panics (fuel : Nat) :
    Prog.Runs (applyArtifactsWithOpts fromBytes (fuel + 1) [])
      [⟨.stat "", some (.sentinel .notFound)⟩] (.panic "slice bounds out of range") :=
  .call (.refl _)

/-! ### Every commit names its parent and its layer -/

/-- The two events before a Commit of `name` with `key`: the Prepare that accepted `key` on the
chain ID of a non-empty prefix `p` of `req` without its last digest, and the one Apply, on that
view's mounts, of an artifact whose digest is the last of `p` and which reported that digest;
`name` is the chain ID of `p`. -/
def CommitWindow (req : List Digest) (pre : List Event) (name key : String) : Prop :=
  ∃ (pre' : List Event) (p : List Digest) (artifact : Artifact) (mounts : List Mount)
    (d : Descriptor), pre = pre' ++ [⟨.prepare key (chainID fromBytes p.dropLast), .ok mounts⟩,
      ⟨.apply artifact.blob mounts, .ok d⟩] ∧
    p ≠ [] ∧ p <+: req ∧ name = chainID fromBytes p ∧
    p.getLast? = some artifact.blob.digest ∧ d.digest = artifact.blob.digest

/-- Every Commit in `es` has its `CommitWindow` right before it. -/
def CommitsAligned (req : List Digest) (es : List Event) : Prop :=
  ∀ pre name key r post, es = pre ++ ⟨.commit name key, r⟩ :: post →
    CommitWindow fromBytes req pre name key

variable {fromBytes}

theorem CommitWindow.prepend {req : List Digest} {pre : List Event} {name key : String}
    (h : CommitWindow fromBytes req pre name key) (A : List Event) :
    CommitWindow fromBytes req (A ++ pre) name key := by
  obtain ⟨pre', p, a, ms, d, rfl, hp⟩ := h
  exact ⟨A ++ pre', p, a, ms, d, by simp, hp⟩

theorem CommitWindow.mono {req req' : List Digest} {pre : List Event} {name key : String}
    (h : CommitWindow fromBytes req pre name key) (hr : req <+: req') :
    CommitWindow fromBytes req' pre name key := by
  obtain ⟨pre', p, a, ms, d, e, hp, hpr, hrest⟩ := h
  exact ⟨pre', p, a, ms, d, e, hp, hpr.trans hr, hrest⟩

/-- A trace followed by events whose Commits have their window in the whole. -/
theorem CommitsAligned.append {req : List Digest} {A B : List Event}
    (hA : CommitsAligned fromBytes req A)
    (hB : ∀ pre name key r post, B = pre ++ ⟨.commit name key, r⟩ :: post →
      CommitWindow fromBytes req (A ++ pre) name key) :
    CommitsAligned fromBytes req (A ++ B) := by
  intro pre name key r post e
  rcases List.append_eq_append_iff.1 e with ⟨a', rfl, rfl⟩ | ⟨c', rfl, hc⟩
  · exact hB _ _ _ _ _ rfl
  · rcases c' with _ | ⟨c, c'⟩
    · simpa using hB [] name key r post (by simpa using hc.symm)
    · obtain ⟨rfl, rfl⟩ := List.cons_eq_cons.1 hc
      exact hA _ _ _ _ _ rfl

theorem CommitsAligned.append' {req : List Digest} {A B : List Event}
    (hA : CommitsAligned fromBytes req A) (hB : CommitsAligned fromBytes req B) :
    CommitsAligned fromBytes req (A ++ B) :=
  hA.append fun _ _ _ _ _ e => (hB _ _ _ _ _ e).prepend A

theorem CommitsAligned.mono {req req' : List Digest} {es : List Event}
    (h : CommitsAligned fromBytes req es) (hr : req <+: req') : CommitsAligned fromBytes req' es :=
  fun _ _ _ _ _ e => (h _ _ _ _ _ e).mono hr

theorem commitsAligned_nil (req : List Digest) : CommitsAligned fromBytes req [] := by
  intro pre _ _ _ _ e
  simp at e

/-- A trace without Commits. -/
theorem commitsAligned_of_forall {req : List Digest} {es : List Event}
    (h : ∀ e ∈ es, ∀ name key, e.1 ≠ .commit name key) : CommitsAligned fromBytes req es := by
  intro pre name key r post e
  exact absurd rfl (h ⟨.commit name key, r⟩ (by simp [e]) name key)

theorem CommitsAligned.cons {req : List Digest} {e : Event} {es : List Event}
    (he : ∀ name key, e.1 ≠ .commit name key) (h : CommitsAligned fromBytes req es) :
    CommitsAligned fromBytes req (e :: es) :=
  show CommitsAligned fromBytes req ([e] ++ es) from
    (commitsAligned_of_forall (by simpa using he)).append' h

section Loop

variable {rec : List Artifact → List Digest → Prog (Option Error)} {pchain : List Digest}
  {parent chainID : String} {artifacts : List Artifact}

/-- The loop issues no Commit of its own. -/
theorem prepareLoop_commitsAligned {req : List Digest}
    (hrec : 1 < artifacts.length → ∀ es r,
      Prog.Runs (rec (artifacts.take (artifacts.length - 1)) pchain) es r →
        CommitsAligned fromBytes req es)
    (n : Nat) {arts : List Artifact} (harts : arts = artifacts ∨ arts = []) {es : List Event}
    {r : Prog (Except Error (String × List Mount))}
    (h : Prog.Runs (prepareLoop rec pchain parent chainID n arts) es r) :
    CommitsAligned fromBytes req es := by
  induction n generalizing arts es with
  | zero => simp only [prepareLoop, Prog.runs_cut] at h; exact h.1 ▸ commitsAligned_nil req
  | succ n ih =>
    simp only [prepareLoop, uniquePart, Prog.call_bind, Prog.pure_bind', Prog.runs_call] at h
    rcases h with ⟨rfl, -⟩ | ⟨tb, es, rfl, ⟨rfl, -⟩ | ⟨a, es, rfl, h⟩⟩
    · exact commitsAligned_nil req
    · exact (commitsAligned_nil req).cons (fun _ _ => nofun)
    refine .cons (fun _ _ => nofun) (.cons (fun _ _ => nofun) ?_)
    cases a with
    | ok ms => simp only [prepareNext, Prog.runs_pure] at h; exact h.1 ▸ commitsAligned_nil req
    | error err =>
      simp only [prepareNext] at h
      split_ifs at h with h1 h2
      · obtain rfl : arts = artifacts := harts.resolve_right fun e => by simp [e] at h1
        have h1 : 1 < arts.length := by simp at h1; exact h1.2
        rcases h.of_bind with ⟨p', hp, -⟩ | ⟨b, es₁, es₂, rfl, h₁, h₂⟩
        · exact hrec h1 _ _ hp
        · refine (hrec h1 _ _ h₁).append' ?_
          rcases b with _ | e
          · exact ih (.inr rfl) h₂
          · simp only at h₂
            split_ifs at h₂
            · exact ih (.inr rfl) h₂
            · simp only [Prog.runs_pure] at h₂; exact h₂.1 ▸ commitsAligned_nil req
      · exact ih harts h
      · simp only [Prog.runs_pure] at h; exact h.1 ▸ commitsAligned_nil req

/-- A run of the loop that returns a view ends with the Prepare that accepted it. -/
theorem prepareLoop_ok_last (n : Nat) {arts : List Artifact} {es : List Event} {key : String}
    {mounts : List Mount}
    (h : Prog.Runs (prepareLoop rec pchain parent chainID n arts) es (.pure (.ok (key, mounts)))) :
    ∃ es₀, es = es₀ ++ [⟨.prepare key parent, .ok mounts⟩] := by
  induction n generalizing arts es with
  | zero => simp [prepareLoop] at h
  | succ n ih =>
    simp only [prepareLoop, uniquePart, Prog.call_bind, Prog.pure_bind', Prog.runs_call] at h
    rcases h with ⟨-, ⟨⟩⟩ | ⟨tb, es, rfl, ⟨-, ⟨⟩⟩ | ⟨a, es, rfl, h⟩⟩
    cases a with
    | ok ms =>
      simp only [prepareNext, Prog.runs_pure, Prog.pure.injEq, Except.ok.injEq,
        Prod.mk.injEq] at h
      obtain ⟨rfl, rfl, rfl⟩ := h
      exact ⟨[⟨.nowAndRandom, tb⟩], rfl⟩
    | error err =>
      simp only [prepareNext] at h
      have step : ∀ es', (∃ es₀, es' = es₀ ++ [⟨.prepare key parent, .ok mounts⟩]) →
          ∃ es₀, (⟨.nowAndRandom, tb⟩ : Event) :: ⟨.prepare (unpackKey (uniqueText tb) chainID)
            parent, .error err⟩ :: es' = es₀ ++ [⟨.prepare key parent, .ok mounts⟩] := by
        rintro _ ⟨es₀, rfl⟩
        exact ⟨_ :: _ :: es₀, rfl⟩
      split_ifs at h with h1 h2
      · obtain ⟨b, es₁, es₂, rfl, -, h₂⟩ := h.of_bind_pure
        rcases b with _ | e
        · obtain ⟨es₀, rfl⟩ := ih h₂
          exact step _ ⟨es₁ ++ es₀, by simp⟩
        · simp only at h₂
          split_ifs at h₂
          · obtain ⟨es₀, rfl⟩ := ih h₂
            exact step _ ⟨es₁ ++ es₀, by simp⟩
          · simp at h₂
      · exact step _ (ih h)
      · simp at h

end Loop

/-- The only Commit after the loop is the frame's own, right after an Apply that reported the
artifact's digest. -/
theorem frameRest_commit {cid key : String} {artifact : Artifact} {mounts : List Mount}
    {es : List Event} {r : Prog (Option Error)}
    (h : Prog.Runs (frameRest cid artifact (.ok (key, mounts))) es r) {pre post : List Event}
    {name k : String} {x : Option Error} (e : es = pre ++ ⟨.commit name k, x⟩ :: post) :
    ∃ d : Descriptor, pre = [⟨.apply artifact.blob mounts, .ok d⟩] ∧
      d.digest = artifact.blob.digest ∧ name = cid ∧ k = key := by
  subst e
  simp only [frameRest, applyAndCommit, Prog.call_bind, Prog.runs_call] at h
  rcases h with ⟨h, -⟩ | ⟨a, es, e, h⟩
  · simp at h
  rcases pre with _ | ⟨p0, pre⟩
  · simp at e
  simp only [List.cons_append, List.cons.injEq] at e
  obtain ⟨rfl, rfl⟩ := e
  have hremove : ∀ {y : Option Error} {es : List Event}, Prog.Runs (cleanup key y) es r →
      ∀ pre, es ≠ pre ++ ⟨.commit name k, x⟩ :: post := by
    rintro (_ | y) es h pre rfl
    · simp [cleanup] at h
    · simp only [cleanup, Prog.runs_call] at h
      rcases h with ⟨h, -⟩ | ⟨z, es, e, h⟩
      · simp at h
      · rcases pre with _ | ⟨p1, pre⟩
        · simp at e
        · simp only [List.cons_append, List.cons.injEq] at e
          obtain ⟨rfl, rfl⟩ := e
          simp at h
  rcases a with err | d
  · simp only [Prog.pure_bind'] at h
    exact absurd rfl (hremove h pre)
  · simp only at h
    split_ifs at h with hd
    · simp only [Prog.pure_bind'] at h
      exact absurd rfl (hremove h pre)
    · simp only [Prog.call_bind, Prog.runs_call] at h
      rcases h with ⟨h, -⟩ | ⟨y, es, e, h⟩
      · simp at h
      rcases pre with _ | ⟨p1, pre⟩
      · simp only [List.nil_append, List.cons.injEq, event_eq_iff, Query.commit.injEq] at e
        obtain ⟨⟨⟨rfl, rfl⟩, -⟩, -⟩ := e
        exact ⟨d, rfl, by simpa using hd, rfl, rfl⟩
      · simp only [List.cons_append, List.cons.injEq] at e
        obtain ⟨rfl, rfl⟩ := e
        rcases y with _ | err <;> simp only [Prog.pure_bind'] at h <;>
          exact absurd rfl (hremove h pre)

/-- Every frame's Commits are aligned with any sequence its chain is a prefix of. -/
theorem applyArtifacts_commitsAligned {req : List Digest} :
    ∀ fuel {artifacts : List Artifact} {chain : List Digest}, FrameOk artifacts chain →
      chain <+: req → ∀ {es : List Event} {r : Prog (Option Error)},
        Prog.Runs (applyArtifacts fromBytes fuel artifacts chain) es r →
          CommitsAligned fromBytes req es
  | 0, _, _, _, _, es, r, h => by
    simp only [applyArtifacts, Prog.runs_cut] at h
    exact h.1 ▸ commitsAligned_nil req
  | fuel + 1, artifacts, chain, hf, hreq, es, r, h => by
    rw [applyArtifacts_of_frameOk fromBytes hf] at h
    have hrec : 1 < artifacts.length → ∀ es r, Prog.Runs (applyArtifacts fromBytes fuel
        (artifacts.take (artifacts.length - 1)) chain.dropLast) es r →
          CommitsAligned fromBytes req es := fun h1 _ _ hr =>
      applyArtifacts_commitsAligned fuel (hf.child h1) ((List.dropLast_prefix chain).trans hreq) hr
    rcases h.of_bind with ⟨p', hp, -⟩ | ⟨x, es₁, es₂, rfl, h₁, h₂⟩
    · exact prepareLoop_commitsAligned hrec fuel (.inl rfl) hp
    · have hl := prepareLoop_commitsAligned hrec fuel (.inl rfl) h₁
      rcases x with e | ⟨key, mounts⟩
      · simp only [frameRest, Prog.runs_pure] at h₂
        rw [h₂.1, List.append_nil]
        exact hl
      · obtain ⟨es₀, rfl⟩ := prepareLoop_ok_last fuel h₁
        refine hl.append fun pre name k x post e => ?_
        obtain ⟨d, rfl, hd, rfl, rfl⟩ := frameRest_commit h₂ e
        exact ⟨es₀, chain, artifacts.getLast hf.1, mounts, d, by simp, hf.chain_ne_nil, hreq, rfl,
          hf.getLast_eq, hd⟩

/-- A frame on no layers stops before its first call. -/
theorem applyArtifacts_nil_runs {fuel : Nat} {es : List Event} {r : Prog (Option Error)}
    (h : Prog.Runs (applyArtifacts fromBytes fuel [] []) es r) : es = [] := by
  cases fuel <;> simp [applyArtifacts, sliceTo] at h <;> exact h.1

/-- An entry point's run, after its Stat, is a run of a frame then a return. -/
private theorem entry_commitsAligned {β : Type} {req : List Digest} {p : Prog (Option Error)}
    {f : Option Error → Prog β} (hp : ∀ es r, Prog.Runs p es r → CommitsAligned fromBytes req es)
    (hf : ∀ x, ∃ b, f x = .pure b) {es : List Event} {r : Prog β}
    (h : Prog.Runs (p >>= f) es r) : CommitsAligned fromBytes req es := by
  rcases h.of_bind with ⟨p', hp', -⟩ | ⟨x, es₁, es₂, rfl, h₁, h₂⟩
  · exact hp _ _ hp'
  · obtain ⟨b, e⟩ := hf x
    rw [e, Prog.runs_pure] at h₂
    rw [h₂.1, List.append_nil]
    exact hp _ _ h₁

/-- The returns after an entry point's frame. -/
private theorem optionError_match_pure {β : Type} (g : Error → β) (b : β) (x : Option Error) :
    ∃ v, (match x with | some e => Prog.pure (g e) | none => Prog.pure b : Prog β) = .pure v := by
  rcases x with _ | e <;> exact ⟨_, rfl⟩

/-- Every Commit of `ApplyArtifactsWithOpts` is aligned with the digests of its layers. -/
theorem applyArtifactsWithOpts_commitsAligned (fuel : Nat) (artifacts : List Artifact)
    {es : List Event} {r : Prog (Except Error Digest)}
    (h : Prog.Runs (applyArtifactsWithOpts fromBytes fuel artifacts) es r) :
    CommitsAligned fromBytes (artifacts.map (·.blob.digest)) es := by
  simp only [applyArtifactsWithOpts, Prog.runs_call] at h
  rcases h with ⟨rfl, -⟩ | ⟨a, es, rfl, h⟩
  · exact commitsAligned_nil _
  refine .cons (fun _ _ => nofun) ?_
  rcases a with _ | err
  · simp only [Prog.runs_pure] at h; exact h.1 ▸ commitsAligned_nil _
  simp only at h
  split_ifs at h
  · simp only [Prog.runs_pure] at h; exact h.1 ▸ commitsAligned_nil _
  by_cases hne : artifacts = []
  · subst hne
    exact entry_commitsAligned (fun es _ h => (applyArtifacts_nil_runs h) ▸
      commitsAligned_nil _) (optionError_match_pure _ _) h
  · exact entry_commitsAligned (fun _ _ h => applyArtifacts_commitsAligned fuel
      (frameOk_map hne) (List.prefix_refl _) h) (optionError_match_pure _ _) h

/-- Every Commit of `ApplyArtifactWithOpts` is aligned with its chain and its artifact. -/
theorem applyArtifactWithOpts_commitsAligned (fuel : Nat) (artifact : Artifact)
    (chain : List Digest) {es : List Event} {r : Prog (Except Error Bool)}
    (h : Prog.Runs (applyArtifactWithOpts fromBytes fuel artifact chain) es r) :
    CommitsAligned fromBytes (chain ++ [artifact.blob.digest]) es := by
  simp only [applyArtifactWithOpts, Prog.runs_call] at h
  rcases h with ⟨rfl, -⟩ | ⟨a, es, rfl, h⟩
  · exact commitsAligned_nil _
  refine .cons (fun _ _ => nofun) ?_
  rcases a with _ | err
  · simp only [Prog.runs_pure] at h; exact h.1 ▸ commitsAligned_nil _
  simp only at h
  split_ifs at h
  · simp only [Prog.runs_pure] at h; exact h.1 ▸ commitsAligned_nil _
  · exact entry_commitsAligned (fun _ _ h => applyArtifacts_commitsAligned fuel
      (frameOk_single artifact chain) (List.prefix_refl _) h) (optionError_match_pure _ _) h

/-- **Every Commit names exactly its parent and its layer.**  In every run of
`applyArtifactsWithOpts` on a layer list, and of `applyArtifactWithOpts` on a chain and an
artifact, under every answer of the snapshotter, the applier and the clock, each Commit is
`Commit(chainID p, key)` for a non-empty prefix `p` of the requested digests, and the two events
before it are the Prepare that accepted `key` on the chain ID of `p` without its last digest and
the one Apply, on that view, of an artifact whose digest is the last of `p` and which reported
that digest.  The recursion keeps `FrameOk` (`FrameOk.child`), which is what ties the last
artifact to the last digest of every frame's chain. -/
theorem applyArtifacts_commits_aligned (fuel : Nat) (artifacts : List Artifact)
    (artifact : Artifact) (chain : List Digest) (es : List Event) :
    (∀ r, Prog.Runs (applyArtifactsWithOpts fromBytes fuel artifacts) es r →
      CommitsAligned fromBytes (artifacts.map (·.blob.digest)) es) ∧
    (∀ r, Prog.Runs (applyArtifactWithOpts fromBytes fuel artifact chain) es r →
      CommitsAligned fromBytes (chain ++ [artifact.blob.digest]) es) :=
  ⟨fun _ => applyArtifactsWithOpts_commitsAligned fuel artifacts,
    fun _ => applyArtifactWithOpts_commitsAligned fuel artifact chain⟩

end

end AttributesClient
