import AttributesClient.Success

/-!
# The diff applier of artifacts (`aritfact/applier.go`)

`artifactApplier.Apply` fetches a layer's bytes from the content store and pushes them, as a
file, into the directory of the prepared view: straight into the upper directory when the view
is a single overlay or aufs mount whose options name one, and through a temporary mount
otherwise.  `getOverlayPath` and `getAufsPath` read the upper directory from the mount options.

`Prog.withApplier` hands an applier to a program, as `image.Unpack` hands its
`artifactApplier` to `ApplyArtifactWithOpts`: every call of the diff applier becomes a run of
the applier's own program.

Results:

* `artifactApplierApply_returns_declared`: a successful Apply returns the declared digest and
  size, not ones it computed, so the diff check of `applyArtifacts` cannot fail on it;
* `Env.PushVerifies`: the checks of oras's `file.Store.Push`, which is what makes that declared
  digest the digest of the bytes Apply consumed (`artifactApplierApply_ok_pushed` finds the Push
  of a successful Apply; `Integrity.lean` draws the consequences);
* `getOverlayPath_error`, `getAufsPath_error`: the parsers fail only with Invalid-Argument, so a
  single overlay or aufs mount whose options do not parse takes the temporary mount;
* `apply_aufs_second_rw_branch`: an empty rw branch before another rw branch is not caught, and
  `apply` writes into the second.
-/

namespace AttributesClient

/-- `ocispec.MediaTypeImageLayer`. -/
def mediaTypeImageLayer : String := "application/vnd.oci.image.layer.v1.tar"

/-! ### The option parsers -/

/-- `getOverlayPath` (lines 110–126): the last `upperdir=` value and the last `lowerdir=` list. -/
def getOverlayPath (options : List String) : Except Error (String × List String) :=
  let (upper, lower) := options.foldl (fun (upper, lower) o =>
    if hasPrefix o "upperdir=" then (trimPrefix o "upperdir=", lower)
    else if hasPrefix o "lowerdir=" then (upper, split (trimPrefix o "lowerdir=") ':')
    else (upper, lower)) ("", [])
  if upper = "" then .error (.wrap "upperdir not found" (.sentinel .invalidArgument))
  else .ok (upper, lower)

/-- The body of the inner loop of `getAufsPath` (lines 145–157): one branch of a `br:` option,
on the upper and lower directories read so far. -/
def aufsBranch : String × List String → String → Except Error (String × List String)
  | (upper, lower), b =>
    if hasSuffix b "=rw" then
      if upper ≠ "" then .error (.wrap "multiple rw branch found" (.sentinel .invalidArgument))
      else .ok (trimSuffix b "=rw", lower)
    else if hasSuffix b "=ro+wh" then
      if upper = "" then .error (.wrap "rw branch be first" (.sentinel .invalidArgument))
      else .ok (upper, lower ++ [trimSuffix b "=ro+wh"])
    else .error (.wrap "unhandled aufs suffix" (.sentinel .invalidArgument))

/-- `getAufsPath` (lines 130–165): the branches of every `br:` option, in order. -/
def getAufsPath (options : List String) : Except Error (String × List String) := do
  let (upper, lower) ← options.foldlM (fun acc o =>
    if hasPrefix o "br:" then (split (trimPrefix o "br:") ':').foldlM aufsBranch acc
    else .ok acc) ("", [])
  if upper = "" then .error (.wrap "rw branch not found" (.sentinel .invalidArgument))
  else .ok (upper, lower)

/-! ### `apply` and `Apply` -/

/-- `mount.WithTempMount(ctx, mounts, f)` with the callback of lines 104–107: mount the view on a
temporary root, push there, unmount; the callback's error comes first. -/
def withTempMount (mounts : List Mount) (desc : Descriptor) (r : Stream) : Prog (Option Error) :=
  .call (.tempMount mounts) fun
    | .error e => .pure (some e)
    | .ok root => .call (.push root desc r) fun err =>
      .call (.tempUnmount root) fun uerr => .pure (err.orElse fun _ => uerr)

/-- The two cases of the `switch` of `apply` after their parser (lines 82–91, 93–101): push
into the upper directory, leave the `switch` for the temporary mount on Invalid-Argument, and
return any other error. -/
def applyDirect (temp : Prog (Option Error)) (desc : Descriptor) (r : Stream) :
    Except Error (String × List String) → Prog (Option Error)
  | .error err => if IsInvalidArgument err then temp else .pure (some err)
  | .ok (path, _) => .call (.push path desc r) .pure

/-- `apply` (lines 72–108). -/
def apply (mounts : List Mount) (desc : Descriptor) (r : Stream) : Prog (Option Error) :=
  match mounts with
  | [m] =>
    if m.type = "overlay" then
      .call .runningInUserNS fun (userns : Bool) =>
        if userns then withTempMount mounts desc r
        else applyDirect (withTempMount mounts desc r) desc r (getOverlayPath m.options)
    else if m.type = "aufs" then
      applyDirect (withTempMount mounts desc r) desc r (getAufsPath m.options)
    else withTempMount mounts desc r
  | _ => withTempMount mounts desc r

/-- `artifactApplier.Apply` (lines 30–70).  `opts` are the `diff.ApplyOpt`s, each given by the
error it returns on `desc`. -/
def artifactApplierApply (opts : List (Descriptor → Option Error)) (desc : Descriptor)
    (mounts : List Mount) : Prog (Except Error Descriptor) :=
  match opts.findSome? (· desc) with
  | some err => .pure (.error (.wrap "failed to apply config opt" err))
  | none =>
    .call (.readerAt desc) fun
      | .error err => .pure (.error err)
      | .ok rc =>
        apply mounts desc rc >>= fun
          | some err => .pure (.error err)
          | none => .call .readRest fun
            | some err => .pure (.error err)
            | none => .pure (.ok ⟨mediaTypeImageLayer, desc.digest, desc.size⟩)

/-- The program `p` with every call of the diff applier answered by a run of `applier`. -/
def Prog.withApplier {α : Type} (applier : Descriptor → List Mount → Prog (Except Error Descriptor)) :
    Prog α → Prog α
  | .pure a => .pure a
  | .call (.apply desc mounts) k => applier desc mounts >>= fun a => withApplier applier (k a)
  | .call q k => .call q fun a => withApplier applier (k a)
  | .panic m => .panic m
  | .cut => .cut

/-! ### What Apply returns -/

/-- **A successful Apply returns the declared digest.**  Whatever bytes the content store served
and whatever the parties of `apply` answered, the descriptor `artifactApplier.Apply` returns on
success is built from the fields of `desc` (lines 65–69): it carries `desc.digest`, not a digest
of the bytes it consumed. -/
theorem artifactApplierApply_returns_declared (opts : List (Descriptor → Option Error))
    (desc : Descriptor) (mounts : List Mount) {es : List Event} {d : Descriptor}
    (h : Prog.Runs (artifactApplierApply opts desc mounts) es (.pure (.ok d))) :
    d = ⟨mediaTypeImageLayer, desc.digest, desc.size⟩ := by
  unfold artifactApplierApply at h
  split at h
  · simp at h
  · rcases Prog.runs_call.1 h with ⟨-, ⟨⟩⟩ | ⟨a, es, -, h⟩
    rcases a with err | rc
    · simp at h
    · obtain ⟨b, es₁, es₂, -, -, h⟩ := h.of_bind_pure
      rcases b with _ | err
      · rcases Prog.runs_call.1 h with ⟨-, ⟨⟩⟩ | ⟨c, es, -, h⟩
        rcases c with _ | err <;> simp at h
        exact h.2
      · simp at h

/-- A `withTempMount` that succeeds has pushed the bytes it was handed. -/
theorem withTempMount_pushed {mounts : List Mount} {desc : Descriptor} {r : Stream}
    {es : List Event} (h : Prog.Runs (withTempMount mounts desc r) es (.pure none)) :
    ∃ root, (⟨.push root desc r, none⟩ : Event) ∈ es := by
  rcases Prog.runs_call.1 h with ⟨-, ⟨⟩⟩ | ⟨a, es, rfl, h₁⟩
  rcases a with e | root
  · obtain ⟨-, ⟨⟩⟩ := Prog.runs_pure.1 h₁
  rcases Prog.runs_call.1 h₁ with ⟨-, ⟨⟩⟩ | ⟨err, es, rfl, h₂⟩
  rcases Prog.runs_call.1 h₂ with ⟨-, ⟨⟩⟩ | ⟨uerr, es, rfl, h₃⟩
  obtain ⟨-, he⟩ := Prog.runs_pure.1 h₃
  cases err with
  | none => exact ⟨root, List.mem_cons_of_mem _ (List.mem_cons_self _ _)⟩
  | some e => cases he

/-- An `apply` that succeeds has pushed the bytes it was handed, into some directory. -/
theorem apply_pushed {mounts : List Mount} {desc : Descriptor} {r : Stream} {es : List Event}
    (h : Prog.Runs (apply mounts desc r) es (.pure none)) :
    ∃ root, (⟨.push root desc r, none⟩ : Event) ∈ es := by
  have hd : ∀ {x : Except Error (String × List String)} {es : List Event},
      Prog.Runs (applyDirect (withTempMount mounts desc r) desc r x) es (.pure none) →
        ∃ root, (⟨.push root desc r, none⟩ : Event) ∈ es
    | .error err, es, h₁ => by
      simp only [applyDirect] at h₁
      split_ifs at h₁
      · exact withTempMount_pushed h₁
      · obtain ⟨-, ⟨⟩⟩ := Prog.runs_pure.1 h₁
    | .ok (path, _), es, h₁ => by
      rcases Prog.runs_call.1 h₁ with ⟨-, ⟨⟩⟩ | ⟨err, es, rfl, h₂⟩
      obtain ⟨-, ⟨⟩⟩ := Prog.runs_pure.1 h₂
      exact ⟨path, List.mem_cons_self _ _⟩
  unfold apply at h
  split at h
  · split_ifs at h
    · rcases Prog.runs_call.1 h with ⟨-, ⟨⟩⟩ | ⟨userns, es, rfl, h₁⟩
      obtain ⟨root, hr⟩ : ∃ root, (⟨.push root desc r, none⟩ : Event) ∈ es := by
        cases userns
        exacts [hd h₁, withTempMount_pushed h₁]
      exact ⟨root, List.mem_cons_of_mem _ hr⟩
    · exact hd h
    · exact withTempMount_pushed h
  · exact withTempMount_pushed h

/-- **A successful Apply pushed the bytes the content store served.**  The run read some bytes
`s` for `desc` and a Push of `s` against `desc` succeeded. -/
theorem artifactApplierApply_ok_pushed {opts : List (Descriptor → Option Error)}
    {desc : Descriptor} {mounts : List Mount} {es : List Event} {d : Descriptor}
    (h : Prog.Runs (artifactApplierApply opts desc mounts) es (.pure (.ok d))) :
    ∃ s root, (⟨.readerAt desc, .ok s⟩ : Event) ∈ es ∧ (⟨.push root desc s, none⟩ : Event) ∈ es := by
  unfold artifactApplierApply at h
  split at h
  · simp at h
  rcases Prog.runs_call.1 h with ⟨-, ⟨⟩⟩ | ⟨a, es, rfl, h₀⟩
  rcases a with err | s
  · simp at h₀
  obtain ⟨b, es₁, es₂, rfl, h₁, h₂⟩ := h₀.of_bind_pure
  rcases b with _ | err
  · obtain ⟨root, hr⟩ := apply_pushed h₁
    exact ⟨s, root, List.mem_cons_self _ _, List.mem_cons_of_mem _ (List.mem_append_left _ hr)⟩
  · simp at h₂

/-- **oras's `file.Store.Push` checks what it writes.**  `Push` copies the reader it is handed
through `content.NewVerifyReader`, and fails (mismatched digest, trailing data, unexpected end
of file) unless the bytes, read to their end, are `desc.size` long and hash to `desc.digest`;
`digestOf` is the hash. -/
def Env.PushVerifies {σ : Type} (digestOf : Stream → Digest) (env : Env σ) : Prop :=
  ∀ s root desc r, (env.answer s (.push root desc r)).1 = none →
    (r.length : Int) = desc.size ∧ digestOf r = desc.digest

/-! ### The parsers fall back on the temporary mount -/

/-- A fold in `Except` that fails fails with an error of its step. -/
theorem foldlM_error {α β : Type} (P : Error → Prop) {f : β → α → Except Error β}
    (hf : ∀ acc a e, f acc a = .error e → P e) :
    ∀ (l : List α) (acc : β) (e : Error), l.foldlM f acc = .error e → P e
  | [], _, _, h => nomatch h
  | a :: l, acc, e, h => by
    rw [List.foldlM_cons] at h
    cases hfa : f acc a with
    | error e' => rw [hfa] at h; cases h; exact hf _ _ _ hfa
    | ok acc' => rw [hfa] at h; exact foldlM_error P hf l acc' e h

theorem aufsBranch_error {acc : String × List String} {b : String} {e : Error}
    (h : aufsBranch acc b = .error e) : IsInvalidArgument e := by
  obtain ⟨upper, lower⟩ := acc
  simp only [aufsBranch] at h
  split_ifs at h <;> cases h <;> rfl

/-- `getOverlayPath` fails only with Invalid-Argument. -/
theorem getOverlayPath_error {options : List String} {e : Error}
    (h : getOverlayPath options = .error e) : IsInvalidArgument e := by
  simp only [getOverlayPath] at h
  split_ifs at h
  cases h
  rfl

/-- `getAufsPath` fails only with Invalid-Argument. -/
theorem getAufsPath_error {options : List String} {e : Error}
    (h : getAufsPath options = .error e) : IsInvalidArgument e := by
  simp only [getAufsPath, bind, Except.bind] at h
  split at h
  · rename_i e' he
    cases h
    refine foldlM_error (fun e => IsInvalidArgument e = true) (fun acc o e h => ?_) _ _ _ he
    split_ifs at h
    exact foldlM_error _ (fun _ _ _ => aufsBranch_error) _ _ _ h
  · split_ifs at h
    cases h
    rfl

/-- **An aufs option list with an empty rw branch before another rw branch is taken.**  The
check for a second rw branch (line 146) tests `upper != ""`, and the empty branch `=rw` leaves
`upper` empty; `apply` then writes straight into the second branch `X`. -/
theorem apply_aufs_second_rw_branch (desc : Descriptor) (r : Stream) :
    apply [⟨"aufs", "none", ["br:=rw:X=rw"]⟩] desc r = .call (.push "X" desc r) .pure := rfl

/-! ### Handing an applier to a program -/

/-- The parties of `env`, with the diff applier answering by a run of `applier` against them; a
run that does not return gets the idle answer. -/
def Env.withApplier {σ : Type} (env : Env σ)
    (applier : Descriptor → List Mount → Prog (Except Error Descriptor)) : Env σ where
  answer s
    | .apply desc mounts =>
      ((match (Prog.exec env (applier desc mounts) s).2.1 with
        | .pure a => a
        | _ => (default : Answer (.apply desc mounts))), (Prog.exec env (applier desc mounts) s).2.2)
    | q => env.answer s q

/-- **Handing an applier to a program is answering its applier calls by the applier's runs.**
When every run of `applier` returns, `p.withApplier applier` run against `env` stops where `p`
stops against `env.withApplier applier`, with the same leaf and the same final state. -/
theorem exec_withApplier {σ α : Type} {env : Env σ}
    {applier : Descriptor → List Mount → Prog (Except Error Descriptor)}
    (hret : ∀ desc mounts s, ∃ a, (Prog.exec env (applier desc mounts) s).2.1 = .pure a)
    (p : Prog α) (s : σ) :
    (Prog.exec env (p.withApplier applier) s).2 =
      (((Prog.exec (env.withApplier applier) p s).2.1).withApplier applier,
        (Prog.exec (env.withApplier applier) p s).2.2) := by
  induction p generalizing s with
  | pure a => rfl
  | call q k ih =>
    cases q with
    | apply desc mounts =>
      obtain ⟨a, ha⟩ := hret desc mounts s
      have he : Prog.exec env (applier desc mounts) s =
          ((Prog.exec env (applier desc mounts) s).1, .pure a,
            (Prog.exec env (applier desc mounts) s).2.2) := by rw [← ha]
      simp only [Prog.withApplier, Prog.exec_bind_of_pure he]
      show (Prog.exec env ((k a).withApplier applier) _).2 = _
      rw [ih]
      simp only [Prog.exec, Env.withApplier, ha]
    | _ => simp only [Prog.withApplier, Prog.exec, Env.withApplier, ih]
  | panic m => rfl
  | cut => rfl

/-- A run with the applier handed over that returns returns the same against the parties that
answer by the applier. -/
theorem exec_withApplier_eq_pure {σ α : Type} {env : Env σ}
    {applier : Descriptor → List Mount → Prog (Except Error Descriptor)}
    (hret : ∀ desc mounts s, ∃ a, (Prog.exec env (applier desc mounts) s).2.1 = .pure a)
    {p : Prog α} {s s' : σ} {a : α}
    (h : (Prog.exec env (p.withApplier applier) s).2 = (.pure a, s')) :
    (Prog.exec (env.withApplier applier) p s).2 = (.pure a, s') := by
  rw [exec_withApplier hret, Prod.mk.injEq] at h
  refine Prod.ext ?_ h.2
  have hl := @Prog.exec_leaf_ne_call _ _ (env.withApplier applier) p s
  revert hl h
  cases (Prog.exec (env.withApplier applier) p s).2.1 <;> simp_all [Prog.withApplier]

/-- A program that returns off the store runs into no panic and never out of fuel. -/
theorem Prog.ReturnsOffStore.not_stuck {α : Type} {p : Prog α} (hp : p.ReturnsOffStore)
    {es : List Event} {r : Prog α} (h : Prog.Runs p es r) : (∀ m, r ≠ .panic m) ∧ r ≠ .cut := by
  induction h with
  | refl p =>
    cases p with
    | panic m => exact hp.elim
    | cut => exact hp.elim
    | _ => exact ⟨fun _ => nofun, nofun⟩
  | call _ ih => exact ih (hp.2 _)

/-- **A run with the applier handed over is a run of the program itself**, each Apply answered
by a run of the applier: when the applier's runs return off the store, the two runs make the
same calls to the store, in the same order, and the first stops by a panic or for lack of fuel
only where the second does. -/
theorem Prog.Runs.of_withApplier {α : Type}
    {applier : Descriptor → List Mount → Prog (Except Error Descriptor)}
    (happ : ∀ desc mounts, (applier desc mounts).ReturnsOffStore) {p : Prog α} {es : List Event}
    {r : Prog α} (h : Prog.Runs (p.withApplier applier) es r) :
    ∃ es' r', Prog.Runs p es' r' ∧ es.filter (·.1.isStore) = es'.filter (·.1.isStore) ∧
      (r = .cut → r' = .cut) ∧ (∀ m, r = .panic m → r' = .panic m) := by
  induction p generalizing es with
  | pure a =>
    obtain ⟨rfl, rfl⟩ := Prog.runs_pure.1 h
    exact ⟨[], _, .refl _, rfl, nofun, fun _ => nofun⟩
  | call q k ih =>
    cases q with
    | apply desc mounts =>
      simp only [Prog.withApplier] at h
      have off : ∀ {es₁ : List Event} {p' : Prog (Except Error Descriptor)},
          Prog.Runs (applier desc mounts) es₁ p' → es₁.filter (·.1.isStore) = [] := fun h₁ =>
        List.filter_eq_nil_iff.2 fun ev hev => by simp [(happ desc mounts).runs h₁ ev hev]
      have returned : ∀ a es₁ es₂, es = es₁ ++ es₂ → Prog.Runs (applier desc mounts) es₁ (.pure a) →
          Prog.Runs ((k a).withApplier applier) es₂ r → ∃ es' r', Prog.Runs (.call (.apply desc mounts) k) es' r' ∧
            es.filter (·.1.isStore) = es'.filter (·.1.isStore) ∧ (r = .cut → r' = .cut) ∧
            (∀ m, r = .panic m → r' = .panic m) := by
        rintro a es₁ es₂ rfl h₁ h₂
        obtain ⟨es', r', h', hf, hc, hp⟩ := ih a h₂
        refine ⟨_, r', .call h', ?_, hc, hp⟩
        rw [List.filter_append, off h₁, hf, List.filter_cons_of_neg (by simp [Query.isStore])]
        rfl
      rcases h.of_bind with ⟨p', h₁, rfl⟩ | ⟨a, es₁, es₂, e, h₁, h₂⟩
      · obtain ⟨hpanic, hcut⟩ := (happ desc mounts).not_stuck h₁
        cases p' with
        | pure a => exact returned a es [] (by simp) h₁ (.refl _)
        | call q' k' => exact ⟨[], _, .refl _, off h₁, nofun, fun _ => nofun⟩
        | panic m => exact absurd rfl (hpanic m)
        | cut => exact absurd rfl hcut
      · exact returned a es₁ es₂ e h₁ h₂
    | _ =>
      simp only [Prog.withApplier] at h
      rcases Prog.runs_call.1 h with ⟨rfl, rfl⟩ | ⟨a, es', rfl, hk⟩
      · exact ⟨[], _, .refl _, rfl, nofun, fun _ => nofun⟩
      obtain ⟨es'', r', h', hf, hc, hp⟩ := ih a hk
      exact ⟨_, r', .call h', by simp only [List.filter_cons, hf], hc, hp⟩
  | panic m =>
    obtain ⟨rfl, rfl⟩ := Prog.runs_panic.1 h
    exact ⟨[], _, .refl _, rfl, nofun, fun _ h => h⟩
  | cut =>
    obtain ⟨rfl, rfl⟩ := Prog.runs_cut.1 h
    exact ⟨[], _, .refl _, rfl, fun h => h, fun _ => nofun⟩

/-! ### Apply leaves the store alone and returns its parties' errors -/

theorem withTempMount_returnsOffStore (mounts : List Mount) (desc : Descriptor) (r : Stream) :
    (withTempMount mounts desc r).ReturnsOffStore :=
  ⟨rfl, fun | .error _ => trivial | .ok _ => ⟨rfl, fun _ => ⟨rfl, fun _ => trivial⟩⟩⟩

theorem apply_returnsOffStore (mounts : List Mount) (desc : Descriptor) (r : Stream) :
    (apply mounts desc r).ReturnsOffStore := by
  have hd : ∀ x, (applyDirect (withTempMount mounts desc r) desc r x).ReturnsOffStore
    | .error _ => by
      simp only [applyDirect]; split_ifs
      exacts [withTempMount_returnsOffStore mounts desc r, trivial]
    | .ok _ => ⟨rfl, fun _ => trivial⟩
  unfold apply
  split
  · split_ifs
    · exact ⟨rfl, fun | true => withTempMount_returnsOffStore _ desc r | false => hd _⟩
    · exact hd _
    · exact withTempMount_returnsOffStore _ desc r
  · exact withTempMount_returnsOffStore _ desc r

/-- **`artifactApplier.Apply` returns on every answer and never calls the snapshot store.** -/
theorem artifactApplierApply_returnsOffStore (opts : List (Descriptor → Option Error))
    (desc : Descriptor) (mounts : List Mount) :
    (artifactApplierApply opts desc mounts).ReturnsOffStore := by
  unfold artifactApplierApply
  split
  · trivial
  · exact ⟨rfl, fun
      | .error _ => trivial
      | .ok rc => (apply_returnsOffStore mounts desc rc).bind fun
        | some _ => trivial
        | none => ⟨rfl, fun | some _ => trivial | none => trivial⟩⟩

/-- An error that some call of the run answered. -/
def Answered (es : List Event) (e : Error) : Prop := ∃ ev ∈ es, ev.1.errorOf ev.2 = some e

theorem withTempMount_error {mounts : List Mount} {desc : Descriptor} {r : Stream}
    {es : List Event} {e : Error} (h : Prog.Runs (withTempMount mounts desc r) es (.pure (some e))) :
    Answered es e := by
  rcases Prog.runs_call.1 h with ⟨-, ⟨⟩⟩ | ⟨a, es, rfl, h₁⟩
  rcases a with e' | root
  · obtain ⟨-, ⟨⟩⟩ := Prog.runs_pure.1 h₁
    exact ⟨_, List.mem_cons_self _ _, rfl⟩
  rcases Prog.runs_call.1 h₁ with ⟨-, ⟨⟩⟩ | ⟨err, es, rfl, h₂⟩
  rcases Prog.runs_call.1 h₂ with ⟨-, ⟨⟩⟩ | ⟨uerr, es, rfl, h₃⟩
  obtain ⟨-, he⟩ := Prog.runs_pure.1 h₃
  cases err with
  | none => exact ⟨⟨.tempUnmount root, uerr⟩, by simp, by cases he; rfl⟩
  | some e' => exact ⟨⟨.push root desc r, some e'⟩, by simp, by cases he; rfl⟩

/-- **The error `apply` returns is an error one of its calls answered**: a parser's error is
Invalid-Argument, which sends `apply` to the temporary mount. -/
theorem apply_error {mounts : List Mount} {desc : Descriptor} {r : Stream} {es : List Event}
    {e : Error} (h : Prog.Runs (apply mounts desc r) es (.pure (some e))) : Answered es e := by
  have hd : ∀ {x : Except Error (String × List String)} {es : List Event},
      (∀ err, x = .error err → IsInvalidArgument err = true) →
      Prog.Runs (applyDirect (withTempMount mounts desc r) desc r x) es (.pure (some e)) →
        Answered es e
    | .error err, es, hx, h₁ => by
      simp only [applyDirect, if_pos (hx err rfl)] at h₁
      exact withTempMount_error h₁
    | .ok (path, _), es, _, h₁ => by
      rcases Prog.runs_call.1 h₁ with ⟨-, ⟨⟩⟩ | ⟨err, es, rfl, h₂⟩
      obtain ⟨-, he⟩ := Prog.runs_pure.1 h₂
      exact ⟨_, List.mem_cons_self _ _, by cases he; rfl⟩
  have tail : ∀ {ev : Event} {es : List Event}, Answered es e → Answered (ev :: es) e :=
    fun ⟨ev, hev, h⟩ => ⟨ev, List.mem_cons_of_mem _ hev, h⟩
  unfold apply at h
  split at h
  · split_ifs at h
    · rcases Prog.runs_call.1 h with ⟨-, ⟨⟩⟩ | ⟨userns, es, rfl, h₁⟩
      cases userns
      · exact tail (hd (fun _ he => getOverlayPath_error he) h₁)
      · exact tail (withTempMount_error h₁)
    · exact hd (fun _ he => getAufsPath_error he) h
    · exact withTempMount_error h
  · exact withTempMount_error h

/-- **The error `artifactApplier.Apply` returns is an apply option's, wrapped with `%w`, or an
error one of its calls answered.** -/
theorem artifactApplierApply_error {opts : List (Descriptor → Option Error)} {desc : Descriptor}
    {mounts : List Mount} {es : List Event} {e : Error}
    (h : Prog.Runs (artifactApplierApply opts desc mounts) es (.pure (.error e))) :
    (∃ o ∈ opts, ∃ e', o desc = some e' ∧ e = .wrap "failed to apply config opt" e') ∨
      Answered es e := by
  unfold artifactApplierApply at h
  split at h
  · rename_i err hf
    obtain ⟨o, ho, hoe⟩ := List.exists_of_findSome?_eq_some hf
    obtain ⟨-, ⟨⟩⟩ := Prog.runs_pure.1 h
    exact .inl ⟨o, ho, err, hoe, rfl⟩
  right
  rcases Prog.runs_call.1 h with ⟨-, ⟨⟩⟩ | ⟨a, es, rfl, h₁⟩
  have mem : ∀ {es : List Event}, Answered es e → Answered (⟨.readerAt desc, a⟩ :: es) e :=
    fun ⟨ev, hev, h⟩ => ⟨ev, List.mem_cons_of_mem _ hev, h⟩
  rcases a with e' | rc
  · obtain ⟨-, ⟨⟩⟩ := Prog.runs_pure.1 h₁
    exact ⟨_, List.mem_cons_self _ _, rfl⟩
  obtain ⟨b, es₁, es₂, rfl, h₂, h₃⟩ := h₁.of_bind_pure
  rcases b with _ | err
  · rcases Prog.runs_call.1 h₃ with ⟨-, ⟨⟩⟩ | ⟨c, es, rfl, h₄⟩
    rcases c with _ | err
    · simp at h₄
    · obtain ⟨-, ⟨⟩⟩ := Prog.runs_pure.1 h₄
      exact mem ⟨⟨.readRest, some e⟩, by simp, rfl⟩
  · obtain ⟨-, ⟨⟩⟩ := Prog.runs_pure.1 h₃
    exact mem ((apply_error h₂).imp fun ev ⟨hev, h⟩ => ⟨List.mem_append_left _ hev, h⟩)

section
variable {env : Env World} (hk : env.KeepsStore)
include hk

/-- Handing `artifactApplier` to a build keeps the store's contract. -/
theorem Env.KeepsStore.withApplier {applier : Descriptor → List Mount → Prog (Except Error Descriptor)}
    (happ : ∀ desc mounts, (applier desc mounts).ReturnsOffStore) :
    (env.withApplier applier).KeepsStore where
  stat := hk.stat
  prepare := hk.prepare
  commit := hk.commit
  remove := hk.remove
  other w q hq := by
    cases q with
    | apply desc mounts => exact ((happ desc mounts).exec hk w).choose_spec.2
    | _ => exact hk.other w _ hq

/-- **`artifactApplier` answers Already-Exists only when its parties or its options do.** -/
theorem Env.NeverExists.withApplier (hn : env.NeverExists) {opts : List (Descriptor → Option Error)}
    (hopts : ∀ o ∈ opts, ∀ desc e, o desc = some e → IsAlreadyExists e = false) :
    (env.withApplier (artifactApplierApply opts)).NeverExists := by
  intro w q e hq he
  cases q with
  | apply desc mounts =>
    have hp := artifactApplierApply_returnsOffStore opts desc mounts
    obtain ⟨a, ha, -⟩ := hp.exec hk w
    have hr := @Prog.exec_runs _ _ env (artifactApplierApply opts desc mounts) w
    simp only [Env.withApplier, ha] at he hr
    rcases a with e' | d
    · simp only [Query.errorOf, Option.some.injEq] at he
      subst he
      rcases artifactApplierApply_error hr with ⟨o, ho, e'', hoe, rfl⟩ | ⟨ev, hev, hevE⟩
      · simpa [IsAlreadyExists] using hopts o ho desc e'' hoe
      · obtain ⟨s', q', rfl⟩ := Prog.exec_event hev
        exact hn s' q' _ (hp.runs hr _ hev) hevE
    · simp [Query.errorOf] at he
  | _ => exact hn w _ e hq he

end

end AttributesClient
