import AttributesClient.Store

/-!
# What a successful build leaves in the store

The entry points of `artifact.go` report success when the snapshot of the chain is there,
or when some frame met an Already-Exists error, which the code reads as "another builder
committed it".  Against parties whose snapshot store keeps its contract (`Env.KeepsStore`),
that reading is right as long as no other party answers Already-Exists (`Env.NeverExists`):
then an Already-Exists error can only come from a Commit refused because the chain ID is
committed.  The applier is such a party, and an applier answering Already-Exists is how a
success leaves nothing committed.

Results:

* `Env.KeepsStore.exec_has`: against a store that keeps its contract, a committed snapshot
  stays committed through any run;
* `prepareLoop_error_not_exists`: the loop of a frame never returns an Already-Exists error;
* `applyArtifacts_success_committed`: a frame that returns success or Already-Exists leaves its
  chain ID committed;
* `applyArtifactsWithOpts_ok_committed`, `applyArtifactWithOpts_ok_committed`: a success of either
  entry point leaves the requested chain ID committed.
-/

namespace AttributesClient

/-! ### Parties around a store that keeps its contract -/

/-- The calls the snapshot store answers. -/
def Query.isStore : Query → Bool
  | .stat _ | .prepare _ _ | .commit _ _ | .remove _ => true
  | _ => false

/-- The error an answer reports, if any. -/
def Query.errorOf : (q : Query) → Answer q → Option Error
  | .stat _, a | .commit _ _, a | .remove _, a | .push _ _ _, a | .tempUnmount _, a
  | .readRest, a | .withLease, a | .leaseDone, a | .update _ _, a => a
  | .prepare _ _, .error e | .apply _ _, .error e | .readerAt _, .error e
  | .tempMount _, .error e | .manifest, .error e | .getLabel _, .error e
  | .supportedPlatforms _, .error e | .configPlatform _, .error e | .imageConfig, .error e => some e
  | _, _ => none

/-- Parties whose snapshot store keeps the contract of `Store` on the world's store, and whose
other parties leave that store alone; `contractEnv` is one. -/
structure Env.KeepsStore (env : Env World) : Prop where
  stat : ∀ w key, (env.answer w (.stat key)).1 = w.store.stat key ∧
    (env.answer w (.stat key)).2.store = w.store
  prepare : ∀ w key parent, (env.answer w (.prepare key parent)).1 = (w.store.prepare key parent).1 ∧
    (env.answer w (.prepare key parent)).2.store = (w.store.prepare key parent).2
  commit : ∀ w name key, (env.answer w (.commit name key)).1 = (w.store.commit name key).1 ∧
    (env.answer w (.commit name key)).2.store = (w.store.commit name key).2
  remove : ∀ w key, (env.answer w (.remove key)).1 = (w.store.remove key).1 ∧
    (env.answer w (.remove key)).2.store = (w.store.remove key).2
  other : ∀ w q, q.isStore = false → (env.answer w q).2.store = w.store

/-- No party but the snapshot store answers an error classified Already-Exists. -/
def Env.NeverExists {σ : Type} (env : Env σ) : Prop :=
  ∀ (s : σ) (q : Query) (e : Error), q.isStore = false → q.errorOf (env.answer s q).1 = some e →
    IsAlreadyExists e = false

theorem contractEnv_keepsStore (outside : Nat → (q : Query) → Answer q) :
    (contractEnv outside).KeepsStore where
  stat _ _ := ⟨rfl, rfl⟩
  prepare _ _ _ := ⟨rfl, rfl⟩
  commit _ _ _ := ⟨rfl, rfl⟩
  remove _ _ := ⟨rfl, rfl⟩
  other _ q h := by cases q <;> first | rfl | simp [Query.isStore] at h

theorem contractEnv_answer_other {outside : Nat → (q : Query) → Answer q} (q : Query)
    (hq : q.isStore = false) (w : World) :
    (contractEnv outside).answer w q = (outside w.calls q, ⟨w.store, w.calls + 1⟩) := by
  cases q <;> first | rfl | simp [Query.isStore] at hq

/-- A call of `contractEnv` to a party other than the store, peeled off a run. -/
theorem exec_contractEnv_call_eq {α : Type} {outside : Nat → (q : Query) → Answer q} {q : Query}
    {k : Answer q → Prog α} {w w' : World} {es : List Event} {r : Prog α}
    (h : Prog.exec (contractEnv outside) (.call q k) w = (es, r, w')) (hq : q.isStore = false) :
    ∃ es', es = ⟨q, outside w.calls q⟩ :: es' ∧
      Prog.exec (contractEnv outside) (k (outside w.calls q)) ⟨w.store, w.calls + 1⟩ = (es', r, w') := by
  simp only [Prog.exec, contractEnv_answer_other q hq, Prod.mk.injEq] at h
  exact ⟨_, h.1.symm, Prod.ext rfl h.2⟩

/-! ### Committed snapshots stay -/

namespace Store

variable {s : Store} {key parent name name' : String}

@[simp] theorem has_prepare : (s.prepare key parent).2.has name = s.has name := by
  unfold prepare; split_ifs <;> rfl

@[simp] theorem has_remove : (s.remove key).2.has name = s.has name := by
  unfold remove; split_ifs <;> rfl

theorem has_commit (h : s.has name' = true) : (s.commit name key).2.has name' = true := by
  unfold commit
  cases s.views.lookup key with
  | none => exact h
  | some parent => dsimp only; split_ifs; exacts [h, by simp [h]]

/-- A Commit adds only its own name. -/
theorem has_of_commit (h : (s.commit name key).2.has name' = true) :
    s.has name' = true ∨ name = name' := by
  revert h; unfold commit; split
  · exact .inl
  · split_ifs
    · exact .inl
    · simp only [has_cons, Bool.or_eq_true, beq_iff_eq]
      exact Or.symm

/-- A Commit that succeeds leaves its name committed. -/
theorem has_commit_of_ok (h : (s.commit name key).1 = none) : (s.commit name key).2.has name = true := by
  revert h; unfold commit; split
  · simp
  · split_ifs <;> simp

/-- A Commit refused with Already-Exists finds its name committed. -/
theorem has_of_commit_exists {e : Error} (h : (s.commit name key).1 = some e)
    (he : IsAlreadyExists e = true) : s.has name = true := by
  unfold commit at h; split at h
  · simp only [Option.some.injEq] at h; subst h; simp [IsAlreadyExists] at he
  · split_ifs at h with hn; exact hn

end Store

namespace Env.KeepsStore

variable {env : Env World} (hk : env.KeepsStore) {name : String}
include hk

theorem has_answer {w : World} (hw : w.store.has name = true) (q : Query) :
    (env.answer w q).2.store.has name = true := by
  cases q with
  | stat key => rw [(hk.stat w key).2]; exact hw
  | prepare key parent => rw [(hk.prepare w key parent).2, Store.has_prepare]; exact hw
  | commit n key => rw [(hk.commit w n key).2]; exact Store.has_commit hw
  | remove key => rw [(hk.remove w key).2, Store.has_remove]; exact hw
  | _ => rw [hk.other]; exacts [hw, rfl]

/-- A snapshot committed after a call was committed before it, or the call committed it. -/
theorem has_of_answer {w : World} {q : Query} (hw : (env.answer w q).2.store.has name = true) :
    w.store.has name = true ∨ ∃ key, q = .commit name key := by
  cases q with
  | stat key => rw [(hk.stat w key).2] at hw; exact .inl hw
  | prepare key parent => rw [(hk.prepare w key parent).2, Store.has_prepare] at hw; exact .inl hw
  | commit n key =>
    rw [(hk.commit w n key).2] at hw
    exact (Store.has_of_commit hw).imp_right fun e => ⟨key, by rw [e]⟩
  | remove key => rw [(hk.remove w key).2, Store.has_remove] at hw; exact .inl hw
  | _ => rw [hk.other] at hw; exacts [.inl hw, rfl]

/-- A snapshot committed after a run was committed before it, or by a Commit of the run. -/
theorem has_of_exec {α : Type} (p : Prog α) {w : World}
    (hw : (Prog.exec env p w).2.2.store.has name = true) :
    w.store.has name = true ∨ ∃ key a, (⟨.commit name key, a⟩ : Event) ∈ (Prog.exec env p w).1 := by
  induction p generalizing w with
  | call q k ih =>
    rcases ih _ hw with h | ⟨key, a, h⟩
    · rcases hk.has_of_answer h with h | ⟨key, rfl⟩
      exacts [.inl h, .inr ⟨key, _, .head _⟩]
    · exact .inr ⟨key, a, .tail _ h⟩
  | _ => exact .inl hw

/-- **A committed snapshot stays committed** through any run against the contract store. -/
theorem exec_has {α : Type} (p : Prog α) {w : World} (hw : w.store.has name = true) :
    (Prog.exec env p w).2.2.store.has name = true := by
  induction p generalizing w with
  | call q k ih => exact ih _ (hk.has_answer hw q)
  | _ => exact hw

end Env.KeepsStore

/-! ### Runs that return -/

namespace Prog

variable {σ α β : Type} {env : Env σ}

/-- A run of a return returns it, where it started. -/
theorem exec_snd_pure_eq {a b : α} {s s' : σ} :
    (exec env (pure a) s).2 = (pure b, s') ↔ a = b ∧ s = s' := by
  simp [exec]

theorem exec_snd_call (q : Query) (k : Answer q → Prog α) (s : σ) :
    (exec env (call q k) s).2 = (exec env (k (env.answer s q).1) (env.answer s q).2).2 := rfl

/-- **A run of `p >>= f` that returns** is a return of `p` followed by a return of `f`. -/
theorem exec_bind_eq_pure {p : Prog α} {f : α → Prog β} {s s' : σ} {es : List Event} {b : β}
    (h : exec env (p >>= f) s = (es, pure b, s')) :
    ∃ es₁ a s₁, exec env p s = (es₁, pure a, s₁) ∧
      ∃ es₂, exec env (f a) s₁ = (es₂, pure b, s') ∧ es = es₁ ++ es₂ := by
  induction p generalizing s es with
  | pure a => exact ⟨[], a, s, rfl, es, h, rfl⟩
  | call q k ih =>
    simp only [call_bind, exec, Prod.mk.injEq] at h
    obtain ⟨rfl, h⟩ := h
    obtain ⟨es₁, a, s₁, h₁, es₂, h₂, e⟩ := ih _
      (show exec env (k _ >>= f) _ = (_, pure b, s') from Prod.ext rfl h)
    exact ⟨_ :: es₁, a, s₁, by simp only [exec, h₁], es₂, h₂, congrArg (List.cons _) e⟩
  | panic m => simp [exec] at h
  | cut => simp [exec] at h

theorem exec_bind_snd_eq_pure {p : Prog α} {f : α → Prog β} {s s' : σ} {b : β}
    (h : (exec env (p >>= f) s).2 = (pure b, s')) :
    ∃ a s₁, (exec env p s).2 = (pure a, s₁) ∧ (exec env (f a) s₁).2 = (pure b, s') := by
  obtain ⟨es₁, a, s₁, h₁, es₂, h₂, -⟩ := exec_bind_eq_pure
    (Prod.ext rfl h : exec env (p >>= f) s = ((exec env (p >>= f) s).1, pure b, s'))
  exact ⟨a, s₁, by rw [h₁], by rw [h₂]⟩

theorem exec_bind_snd_of_pure {p : Prog α} {s s' : σ} {a : α} (h : (exec env p s).2 = (pure a, s'))
    (f : α → Prog β) : (exec env (p >>= f) s).2 = (exec env (f a) s').2 := by
  rw [exec_bind_of_pure (Prod.ext rfl h : exec env p s = ((exec env p s).1, pure a, s'))]

/-- A run stops at a leaf, never at a call. -/
theorem exec_leaf_ne_call (p : Prog α) (s : σ) (q : Query) (k : Answer q → Prog α) :
    (exec env p s).2.1 ≠ call q k := by
  induction p generalizing s with
  | call q' k' ih => exact ih _ _
  | _ => nofun

/-- Every event of a run against `env` is a call with an answer `env` gave. -/
theorem exec_event {p : Prog α} {s : σ} {ev : Event} (h : ev ∈ (exec env p s).1) :
    ∃ s' q, ev = ⟨q, (env.answer s' q).1⟩ := by
  induction p generalizing s with
  | call q k ih =>
    rcases List.mem_cons.1 h with rfl | h
    · exact ⟨s, q, rfl⟩
    · exact ih _ h
  | _ => simp [exec] at h

/-- `p` returns on every answer, and never calls the snapshot store. -/
def ReturnsOffStore : Prog α → Prop
  | pure _ => True
  | call q k => q.isStore = false ∧ ∀ a, (k a).ReturnsOffStore
  | panic _ => False
  | cut => False

theorem ReturnsOffStore.bind {p : Prog α} {f : α → Prog β} (hp : p.ReturnsOffStore)
    (hf : ∀ a, (f a).ReturnsOffStore) : (p >>= f).ReturnsOffStore := by
  induction p with
  | pure a => exact hf a
  | call q k ih => exact ⟨hp.1, fun a => ih a (hp.2 a)⟩
  | panic m => exact hp.elim
  | cut => exact hp.elim

/-- The calls of a run of such a program are not the store's. -/
theorem ReturnsOffStore.runs {p p' : Prog α} {es : List Event} (hp : p.ReturnsOffStore)
    (h : Runs p es p') : ∀ ev ∈ es, ev.1.isStore = false := by
  induction h with
  | refl => simp
  | call _ ih =>
    rintro ev (_ | ⟨_, hev⟩)
    exacts [hp.1, ih (hp.2 _) ev hev]

/-- Against a store that keeps its contract, such a program returns and leaves the store as
it was. -/
theorem ReturnsOffStore.exec {env : Env World} (hk : env.KeepsStore) {p : Prog α}
    (hp : p.ReturnsOffStore) (w : World) :
    ∃ a, (Prog.exec env p w).2.1 = pure a ∧ (Prog.exec env p w).2.2.store = w.store := by
  induction p generalizing w with
  | pure a => exact ⟨a, rfl, rfl⟩
  | call q k ih =>
    obtain ⟨a, ha, hs⟩ := ih _ (hp.2 _) (env.answer w q).2
    exact ⟨a, ha, hs.trans (hk.other w q hp.1)⟩
  | panic m => exact hp.elim
  | cut => exact hp.elim

end Prog

/-! ### Success leaves the chain committed -/

section Loop

variable {rec : List Artifact → List Digest → Prog (Option Error)} {pchain : List Digest}
  {parent chainID : String}

/-- **The loop never returns an Already-Exists error**: Prepare's Already-Exists makes it try
a new key, and the ancestors' Already-Exists makes it go on; every other error is returned
as it came, or wrapped with `%w`. -/
theorem prepareLoop_error_not_exists (n : Nat) (arts : List Artifact) {es : List Event}
    {e : Error} (h : Prog.Runs (prepareLoop rec pchain parent chainID n arts) es (.pure (.error e))) :
    IsAlreadyExists e = false := by
  induction n generalizing arts es with
  | zero => simp [prepareLoop] at h
  | succ n ih =>
    simp only [prepareLoop, uniquePart, Prog.call_bind, Prog.pure_bind', Prog.runs_call] at h
    rcases h with ⟨-, ⟨⟩⟩ | ⟨tb, es, -, ⟨-, ⟨⟩⟩ | ⟨a, es, -, h⟩⟩
    cases a with
    | ok ms => simp [prepareNext] at h
    | error err =>
      simp only [prepareNext] at h
      split_ifs at h with h1 h2
      · obtain ⟨b, es₁, es₂, -, -, h⟩ := h.of_bind_pure
        rcases b with _ | e'
        · exact ih _ h
        · simp only at h
          split_ifs at h with h3
          · exact ih _ h
          · simp only [Prog.runs_pure, Prog.pure.injEq, Except.error.injEq] at h
            rw [h.2]; simpa using h3
      · exact ih _ h
      · simp only [Prog.runs_pure, Prog.pure.injEq, Except.error.injEq] at h
        rw [h.2]; simpa [IsAlreadyExists] using h2

end Loop

section Committed

variable {env : Env World} (hk : env.KeepsStore) (hn : env.NeverExists)
include hk hn

/-- After the loop: applying and committing on the accepted view, then cleaning up, returns
success or Already-Exists only with the chain ID committed. -/
theorem frameRest_committed {cid key : String} {artifact : Artifact} {mounts : List Mount}
    {w w' : World} {r : Option Error}
    (h : (Prog.exec env (frameRest cid artifact (.ok (key, mounts))) w).2 = (.pure r, w'))
    (hr : r.all IsAlreadyExists = true) : w'.store.has cid = true := by
  rw [frameRest] at h
  obtain ⟨x, w₁, h₁, h₂⟩ := Prog.exec_bind_snd_eq_pure h
  have hx : (Prog.exec env (cleanup key x) w₁).2.1 = .pure x := by cases x <;> rfl
  obtain rfl : r = x := by rw [h₂] at hx; exact Prog.pure.inj hx
  rw [show w' = (Prog.exec env (cleanup key r) w₁).2.2 by rw [h₂]]
  refine hk.exec_has _ ?_
  simp only [applyAndCommit, Prog.exec_snd_call] at h₁
  generalize hA : env.answer w (.apply artifact.blob mounts) = A at h₁
  obtain ⟨e | d, w₂⟩ := A
  · simp only [Prog.exec, Prod.mk.injEq, Prog.pure.injEq] at h₁
    obtain ⟨rfl, -⟩ := h₁
    have := hn w (.apply artifact.blob mounts) e rfl (by rw [hA]; rfl)
    simp_all [IsAlreadyExists]
  dsimp only at h₁
  split_ifs at h₁
  · simp only [Prog.exec, Prod.mk.injEq, Prog.pure.injEq] at h₁
    obtain ⟨rfl, -⟩ := h₁
    simp [IsAlreadyExists] at hr
  obtain ⟨hc₁, hc₂⟩ := hk.commit w₂ cid key
  simp only [Prog.exec_snd_call] at h₁
  generalize env.answer w₂ (.commit cid key) = C at h₁ hc₁ hc₂
  obtain ⟨c, w₃⟩ := C
  dsimp only at hc₁ hc₂
  subst hc₁
  rcases hc : (w₂.store.commit cid key).1 with _ | e <;> simp only [hc] at h₁ <;>
    simp only [Prog.exec, Prod.mk.injEq, Prog.pure.injEq] at h₁ <;> obtain ⟨rfl, rfl⟩ := h₁ <;>
    rw [hc₂]
  · exact Store.has_commit_of_ok hc
  · exact Store.has_commit (Store.has_of_commit_exists hc (by simpa [IsAlreadyExists] using hr))

variable (fromBytes : String → Digest)

/-- **A frame that returns success or Already-Exists leaves its chain ID committed**, whatever
its artifacts, its chain and its fuel. -/
theorem applyArtifacts_success_committed (fuel : Nat) (artifacts : List Artifact)
    (chain : List Digest) {w w' : World} {r : Option Error}
    (h : (Prog.exec env (applyArtifacts fromBytes fuel artifacts chain) w).2 = (.pure r, w'))
    (hr : r.all IsAlreadyExists = true) : w'.store.has (chainID fromBytes chain) = true := by
  cases fuel with
  | zero => simp [applyArtifacts, Prog.exec] at h
  | succ fuel =>
    simp only [applyArtifacts] at h
    split at h
    · simp [Prog.exec] at h
    split at h
    · simp [Prog.exec] at h
    obtain ⟨x, w₁, h₁, h₂⟩ := Prog.exec_bind_snd_eq_pure h
    rcases x with e | ⟨key, mounts⟩
    · have he := prepareLoop_error_not_exists _ _
        (h₁ ▸ @Prog.exec_runs _ _ env _ w : Prog.Runs _ _ (.pure (.error e)))
      simp only [frameRest, Prog.exec, Prod.mk.injEq, Prog.pure.injEq] at h₂
      obtain ⟨rfl, -⟩ := h₂
      simp [he] at hr
    · exact frameRest_committed hk hn h₂ hr

/-- **A success of `applyArtifactWithOpts` leaves the chain committed**: the snapshot of
`chain` with `artifact` on top is there when it returns, whether this call applied the layer
or not. -/
theorem applyArtifactWithOpts_ok_committed (fuel : Nat) (artifact : Artifact)
    (chain : List Digest) {w w' : World} {unpacked : Bool}
    (h : (Prog.exec env (applyArtifactWithOpts fromBytes fuel artifact chain) w).2 =
      (.pure (.ok unpacked), w')) :
    w'.store.has (chainID fromBytes (chain ++ [artifact.blob.digest])) = true := by
  obtain ⟨hs₁, hs₂⟩ := hk.stat w (chainID fromBytes (chain ++ [artifact.blob.digest]))
  simp only [applyArtifactWithOpts, Prog.exec_snd_call] at h
  generalize env.answer w (.stat _) = A at h hs₁ hs₂
  obtain ⟨a, w₁⟩ := A
  dsimp only at hs₁ hs₂ h
  subst hs₁
  rcases hst : w.store.stat (chainID fromBytes (chain ++ [artifact.blob.digest])) with _ | err <;>
    simp only [hst] at h
  · simp only [Prog.exec, Prod.mk.injEq] at h
    rw [← h.2, hs₂]
    simpa [Store.stat] using hst
  split_ifs at h
  · simp [Prog.exec] at h
  obtain ⟨x, w₂, h₁, h₂⟩ := Prog.exec_bind_snd_eq_pure h
  rcases x with _ | e
  · simp only [Prog.exec, Prod.mk.injEq] at h₂
    exact h₂.2 ▸ applyArtifacts_success_committed hk hn fromBytes _ _ _ h₁ rfl
  · dsimp only at h₂
    split_ifs at h₂ with hae
    · simp only [Prog.exec, Prod.mk.injEq] at h₂
      exact h₂.2 ▸ applyArtifacts_success_committed hk hn fromBytes _ _ _ h₁ (by simpa using hae)
    · simp [Prog.exec] at h₂

/-- **A success of `applyArtifactsWithOpts` returns the chain ID of the layers, committed.** -/
theorem applyArtifactsWithOpts_ok_committed (fuel : Nat) (artifacts : List Artifact)
    {w w' : World} {id : Digest}
    (h : (Prog.exec env (applyArtifactsWithOpts fromBytes fuel artifacts) w).2 =
      (.pure (.ok id), w')) :
    id = chainID fromBytes (artifacts.map (·.blob.digest)) ∧ w'.store.has id = true := by
  obtain ⟨hs₁, hs₂⟩ := hk.stat w (chainID fromBytes (artifacts.map (·.blob.digest)))
  simp only [applyArtifactsWithOpts, Prog.exec_snd_call] at h
  generalize env.answer w (.stat _) = A at h hs₁ hs₂
  obtain ⟨a, w₁⟩ := A
  dsimp only at hs₁ hs₂ h
  subst hs₁
  rcases hst : w.store.stat (chainID fromBytes (artifacts.map (·.blob.digest))) with _ | err <;>
    simp only [hst] at h
  · simp only [Prog.exec, Prod.mk.injEq, Prog.pure.injEq, Except.ok.injEq] at h
    obtain ⟨rfl, rfl⟩ := h
    exact ⟨rfl, by rw [hs₂]; simpa [Store.stat] using hst⟩
  split_ifs at h
  · simp [Prog.exec] at h
  obtain ⟨x, w₂, h₁, h₂⟩ := Prog.exec_bind_snd_eq_pure h
  have hr : x.all IsAlreadyExists = true → w₂.store.has (chainID fromBytes
      (artifacts.map (·.blob.digest))) = true :=
    applyArtifacts_success_committed hk hn fromBytes _ _ _ h₁
  rcases x with _ | e
  · simp only [Prog.exec, Prod.mk.injEq, Prog.pure.injEq, Except.ok.injEq] at h₂
    obtain ⟨⟨rfl⟩, rfl⟩ := h₂
    exact ⟨rfl, hr rfl⟩
  · dsimp only at h₂
    split_ifs at h₂ with hae
    · simp only [Prog.exec, Prod.mk.injEq, Prog.pure.injEq, Except.ok.injEq] at h₂
      obtain ⟨⟨rfl⟩, rfl⟩ := h₂
      exact ⟨rfl, hr (by simpa using hae)⟩
    · simp [Prog.exec] at h₂

end Committed

theorem applyArtifactsWithOpts_ok_committed_single :
    ∃ w', (Prog.exec (contractEnv quietOutside) (applyArtifactsWithOpts id 2 [⟨⟨"t", "sha256:a", 1⟩⟩])
        ⟨⟨[], []⟩, 0⟩).2 = (.pure (.ok "sha256:a"), w') ∧
      "sha256:a" = chainID id ["sha256:a"] ∧ w'.store.has "sha256:a" = true := by
  obtain ⟨w', h⟩ : ∃ w', (Prog.exec (contractEnv quietOutside)
      (applyArtifactsWithOpts id 2 [⟨⟨"t", "sha256:a", 1⟩⟩]) ⟨⟨[], []⟩, 0⟩).2 =
      (.pure (.ok "sha256:a"), w') := ⟨_, rfl⟩
  refine ⟨w', h, applyArtifactsWithOpts_ok_committed (contractEnv_keepsStore _)
    (fun w q e hq he => ?_) id 2 _ h⟩
  rw [contractEnv_answer_other q hq] at he
  cases q <;> cases he

end AttributesClient
