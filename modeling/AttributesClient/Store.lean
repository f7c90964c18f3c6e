import AttributesClient.Artifact

/-!
# The snapshot store, and runs against it

The snapshotter is a party outside the repository; the spec's §4.3 gives its contract, and
`Store` is that contract as a state machine: committed snapshots keyed by chain ID with their
parent, and prepared views keyed by build key with the parent they were prepared on.  Stat
finds committed snapshots; Prepare fails Already-Exists on a build key in use and Not-Found on a
parent that is neither the empty root nor committed; Commit seals a view under a chain ID and
fails Already-Exists when that chain ID is committed; Remove discards a view.

`Prog.exec` runs a program against parties that answer from a state (`Env`); `Prog.exec_runs`
says such a run is one of the program's runs.  `contractEnv` is the world of a sequential run:
the contract store, and every other party answering as a given function of the call.
`Env.cancelAfter`
cancels the caller's context after a number of calls: from then on every party that takes the
context answers `context canceled`.
-/

namespace AttributesClient

/-- The snapshot store of the spec's §4.3. -/
structure Store where
  /-- Committed snapshots: chain ID and parent chain ID. -/
  committed : List (String × String)
  /-- Prepared views: build key and parent chain ID. -/
  views : List (String × String)
  deriving DecidableEq, Repr

namespace Store

/-- A committed snapshot is keyed `name`. -/
def has (s : Store) (name : String) : Bool := s.committed.any (·.1 == name)

/-- A view is keyed `key`. -/
def hasView (s : Store) (key : String) : Bool := s.views.any (·.1 == key)

/-- `parent` can carry a view: it is the empty root or a committed snapshot. -/
def canParent (s : Store) (parent : String) : Bool := parent == "" || s.has parent

/-- `stat(chainID)`. -/
def stat (s : Store) (key : String) : Option Error :=
  if s.has key then none else some (.sentinel .notFound)

/-- `prepare(buildKey, parent)`. -/
def prepare (s : Store) (key parent : String) : Except Error (List Mount) × Store :=
  if s.hasView key then (.error (.sentinel .alreadyExists), s)
  else if !s.canParent parent then (.error (.sentinel .notFound), s)
  else (.ok [⟨"bind", key, ["rw"]⟩], { s with views := (key, parent) :: s.views })

/-- `commit(chainID, buildKey)`. -/
def commit (s : Store) (name key : String) : Option Error × Store :=
  match s.views.lookup key with
  | none => (some (.sentinel .notFound), s)
  | some parent =>
    if s.has name then (some (.sentinel .alreadyExists), s)
    else (none, ⟨(name, parent) :: s.committed, s.views.filter (·.1 != key)⟩)

/-- `remove(buildKey)`. -/
def remove (s : Store) (key : String) : Option Error × Store :=
  if s.hasView key then (none, { s with views := s.views.filter (·.1 != key) })
  else (some (.sentinel .notFound), s)

/-! Each operation in the cases a sequential build meets. -/

variable {s : Store} {key parent name : String}

theorem prepare_of_fresh (hv : s.hasView key = false) (hp : s.canParent parent = true) :
    s.prepare key parent = (.ok [⟨"bind", key, ["rw"]⟩], { s with views := (key, parent) :: s.views }) := by
  simp [prepare, hv, hp]

theorem prepare_of_missing (hv : s.hasView key = false) (hp : s.canParent parent = false) :
    s.prepare key parent = (.error (.sentinel .notFound), s) := by
  simp [prepare, hv, hp]

/-- Dropping a view from views that never had its key. -/
theorem filter_views_cons (hv : s.hasView key = false) :
    ((key, parent) :: s.views).filter (·.1 != key) = s.views := by
  simp only [hasView, List.any_eq_false, beq_iff_eq] at hv
  simp [List.filter_eq_self.2 fun v hv' => bne_iff_ne.2 (hv v hv')]

theorem commit_fresh_view (hv : s.hasView key = false) (hn : s.has name = false) :
    Store.commit { s with views := (key, parent) :: s.views } name key =
      (none, ⟨(name, parent) :: s.committed, s.views⟩) := by
  simp [commit, has, filter_views_cons hv] at hn ⊢
  exact fun x h => hn _ _ h rfl

theorem commit_fresh_view_exists (hn : s.has name = true) :
    Store.commit { s with views := (key, parent) :: s.views } name key =
      (some (.sentinel .alreadyExists), { s with views := (key, parent) :: s.views }) := by
  simp [commit, has] at hn ⊢
  exact hn

theorem remove_fresh_view (hv : s.hasView key = false) :
    Store.remove { s with views := (key, parent) :: s.views } key = (none, s) := by
  simp [remove, hasView, filter_views_cons hv]

@[simp] theorem has_cons (c : String × String) (views : List (String × String)) :
    has ⟨c :: s.committed, views⟩ name = (c.1 == name || s.has name) := rfl

end Store

/-! ### Runs against parties with a state -/

/-- Parties that answer every call from a state, and move to a new one. -/
structure Env (σ : Type) where
  answer : σ → (q : Query) → Answer q × σ

namespace Prog

variable {σ α β : Type} (env : Env σ)

/-- Run `p` against `env` from `s` until it stops. -/
def exec : Prog α → σ → List Event × Prog α × σ
  | pure a, s => ([], pure a, s)
  | call q k, s =>
    let r := exec (k (env.answer s q).1) (env.answer s q).2
    (⟨q, (env.answer s q).1⟩ :: r.1, r.2)
  | panic m, s => ([], panic m, s)
  | cut, s => ([], cut, s)

variable {env}

theorem exec_runs (p : Prog α) (s : σ) : Runs p (exec env p s).1 (exec env p s).2.1 := by
  induction p generalizing s with
  | pure a => exact .refl _
  | call q k ih => exact .call (ih _ _)
  | panic m => exact .refl _
  | cut => exact .refl _

/-- `exec` of `p >>= f` when `p` returns: the events of `p`, then those of `f`. -/
theorem exec_bind_of_pure {p : Prog α} {s s' : σ} {es : List Event} {a : α}
    (h : exec env p s = (es, pure a, s')) (f : α → Prog β) :
    exec env (p >>= f) s = (es ++ (exec env (f a) s').1, (exec env (f a) s').2) := by
  induction p generalizing s es with
  | pure b => simp only [exec, Prod.mk.injEq] at h; obtain ⟨rfl, ⟨⟩, rfl⟩ := h; rfl
  | call q k ih =>
    simp only [exec, Prod.mk.injEq] at h
    obtain ⟨rfl, h⟩ := h
    have e := ih _ (show exec env (k (env.answer s q).1) (env.answer s q).2 = (_, pure a, s') from
      Prod.ext rfl h)
    show (_ :: (exec env (k _ >>= f) _).1, (exec env (k _ >>= f) _).2) = _
    rw [e]
    rfl
  | panic m => simp [exec] at h
  | cut => simp [exec] at h

/-- **`exec` of `p >>= f`**: the run of `p`, then the run of what `p` stopped at, bound to `f`
(which is `f a` when `p` returned `a`, and the leaf itself on a panic or a cut). -/
theorem exec_bind (p : Prog α) (f : α → Prog β) (s : σ) :
    exec env (p >>= f) s = ((exec env p s).1 ++ (exec env ((exec env p s).2.1 >>= f) (exec env p s).2.2).1,
      (exec env ((exec env p s).2.1 >>= f) (exec env p s).2.2).2) := by
  induction p generalizing s with
  | call q k ih =>
    show (_ :: (exec env (k _ >>= f) _).1, (exec env (k _ >>= f) _).2) = _
    rw [ih]
    rfl
  | _ => rfl

end Prog

/-! ### The world of a sequential run -/

/-- A sequential run's world: the store, and how many calls the other parties have answered. -/
structure World where
  store : Store
  calls : Nat

/-- The store keeps its contract, and every other party answers as `outside` says: `outside i q`
is the answer to the `i`-th call made to any of them (the clock, the applier, the content
store, the client).  A run is determined by its answers, so a result for every `outside` is a
result for every behaviour of those parties. -/
def contractEnv (outside : Nat → (q : Query) → Answer q) : Env World where
  answer w
    | .stat key => (w.store.stat key, w)
    | .prepare key parent => ((w.store.prepare key parent).1, ⟨(w.store.prepare key parent).2, w.calls⟩)
    | .commit name key => ((w.store.commit name key).1, ⟨(w.store.commit name key).2, w.calls⟩)
    | .remove key => ((w.store.remove key).1, ⟨(w.store.remove key).2, w.calls⟩)
    | q => (outside w.calls q, ⟨w.store, w.calls + 1⟩)

/-- Every party other than the store answers its default: the applier reports the descriptor
it was given and the clock reads zero. -/
def quietOutside : Nat → (q : Query) → Answer q := fun _ _ => default

section
variable {outside : Nat → (q : Query) → Answer q} {w : World}

@[simp] theorem contractEnv_stat (key : String) :
    (contractEnv outside).answer w (.stat key) = (w.store.stat key, w) := rfl

@[simp] theorem contractEnv_prepare (key parent : String) :
    (contractEnv outside).answer w (.prepare key parent) =
      ((w.store.prepare key parent).1, ⟨(w.store.prepare key parent).2, w.calls⟩) := rfl

@[simp] theorem contractEnv_commit (name key : String) :
    (contractEnv outside).answer w (.commit name key) =
      ((w.store.commit name key).1, ⟨(w.store.commit name key).2, w.calls⟩) := rfl

@[simp] theorem contractEnv_remove (key : String) :
    (contractEnv outside).answer w (.remove key) =
      ((w.store.remove key).1, ⟨(w.store.remove key).2, w.calls⟩) := rfl

@[simp] theorem contractEnv_apply (desc : Descriptor) (mounts : List Mount) :
    (contractEnv outside).answer w (.apply desc mounts) =
      (outside w.calls (.apply desc mounts), ⟨w.store, w.calls + 1⟩) := rfl

@[simp] theorem contractEnv_nowAndRandom :
    (contractEnv outside).answer w .nowAndRandom =
      (outside w.calls .nowAndRandom, ⟨w.store, w.calls + 1⟩) := rfl

end

/-- `context.Canceled`. -/
def contextCanceled : Error := .new "context canceled"

/-- What a call made with a cancelled context gets, for the parties that take the context. -/
def Query.canceled : (q : Query) → Option (Answer q)
  | .stat _ | .commit _ _ | .remove _ => some (some contextCanceled)
  | .prepare _ _ => some (.error contextCanceled)
  | .apply _ _ => some (.error contextCanceled)
  | _ => none

/-- `env`, with the caller's context cancelled from the `c`-th call on. -/
def Env.cancelAfter {σ : Type} (env : Env σ) (c : Nat) : Env (σ × Nat) where
  answer
    | (s, i), q =>
      match (if c ≤ i then q.canceled else none) with
      | some a => (a, (s, i + 1))
      | none => ((env.answer s q).1, ((env.answer s q).2, i + 1))

/-- Before the cancellation the parties answer as they would: the contract store's Remove of a
view succeeds, which is all the cleanup of a frame asks of it. -/
theorem cancelAfter_remove_live {outside : Nat → (q : Query) → Answer q} {c j : Nat} (hj : j < c)
    {w : World} {key : String} (hv : w.store.hasView key = true) :
    ((contractEnv outside).cancelAfter c).answer (w, j) (.remove key) =
      (none, (⟨(w.store.remove key).2, w.calls⟩, j + 1)) := by
  simp [Env.cancelAfter, Nat.not_le.2 hj, Store.remove, hv]

end AttributesClient
