import AttributesClient.Basic

/-!
# Programs that call the outside

Every function of the client that talks to the snapshotter, the diff applier, the content
store, the containerd client, the clock or the random source is modelled as a `Prog`: a tree
whose nodes are the calls (`Query`) and whose branches are the answers (`Answer q`), with the
code's control flow between the calls.  A Go panic is a leaf `panic`; `cut` is the leaf a loop
reaches when the model's fuel runs out, and is never a return of the code.

`Runs p es p'` says that `p`, answered with the events `es`, reaches `p'`.  Since the answers
are arbitrary, the runs of `p` are its behaviours under every behaviour of the parties it
calls; a result that needs those parties to keep a contract states it as a hypothesis on `es`.
`Runs.of_bind` splits a run of `p >>= f` at the point where `p` returns.
-/

namespace AttributesClient

/-- `platforms.Platform`, as the text it prints as. -/
abbrev Platform := String

/-- `ocispec.Manifest`, with the fields the code reads. -/
structure Manifest where
  config : Descriptor
  layers : List Descriptor
  deriving DecidableEq, Repr

/-- `content.Info`, with the fields the code sets. -/
structure Info where
  digest : Digest
  labels : List (String × String)
  deriving DecidableEq, Repr

/-- The bytes of a blob as the content store serves them. -/
abbrev Stream := List UInt8

/-- The calls the client makes to the parties around it. -/
inductive Query where
  /-- `sn.Stat(ctx, key)` -/
  | stat (key : String)
  /-- `sn.Prepare(ctx, key, parent)` -/
  | prepare (key parent : String)
  /-- `sn.Commit(ctx, name, key)` -/
  | commit (name key : String)
  /-- `sn.Remove(ctx, key)` -/
  | remove (key : String)
  /-- `a.Apply(ctx, desc, mounts)` on a `diff.Applier` -/
  | apply (desc : Descriptor) (mounts : List Mount)
  /-- `time.Now().Nanosecond()` and `rand.Read` into a 3-byte buffer (whose failure the
  caller ignores) -/
  | nowAndRandom
  /-- `Store.ReaderAt(ctx, desc)` on the content store -/
  | readerAt (desc : Descriptor)
  /-- `userns.RunningInUserNS()` -/
  | runningInUserNS
  /-- `file.New(root).Push(ctx, desc, r)`, with the bytes `r` it is handed; the checks Push makes
  on them are `Env.PushVerifies` -/
  | push (root : String) (desc : Descriptor) (r : Stream)
  /-- the mount half of `mount.WithTempMount`: the mounted temporary root -/
  | tempMount (mounts : List Mount)
  /-- the deferred unmount half of `mount.WithTempMount` -/
  | tempUnmount (root : String)
  /-- `io.Copy(io.Discard, rc)` -/
  | readRest
  /-- `client.WithLease(ctx)` -/
  | withLease
  /-- the deferred `done(ctx)` of the lease -/
  | leaseDone
  /-- `images.Manifest(ctx, cs, target, platform)` -/
  | manifest
  /-- `client.GetLabel(ctx, key)` -/
  | getLabel (key : String)
  /-- whether `client.SnapshotService(name)` is non-nil -/
  | snapshotService (name : String)
  /-- `client.GetSnapshotterSupportedPlatforms(ctx, name)` -/
  | supportedPlatforms (name : String)
  /-- `content.ReadBlob` of the config, unmarshalled and normalised to its platform -/
  | configPlatform (desc : Descriptor)
  /-- `cs.Update(ctx, info, fieldpaths...)` -/
  | update (info : Info) (fieldpaths : List String)
  /-- `image.Config(ctx, cs, platform)` -/
  | imageConfig

/-- What each call returns. -/
def Answer : Query → Type
  | .stat _ => Option Error
  | .prepare _ _ => Except Error (List Mount)
  | .commit _ _ => Option Error
  | .remove _ => Option Error
  | .apply _ _ => Except Error Descriptor
  | .nowAndRandom => Nat × UInt8 × UInt8 × UInt8
  | .readerAt _ => Except Error Stream
  | .runningInUserNS => Bool
  | .push _ _ _ => Option Error
  | .tempMount _ => Except Error String
  | .tempUnmount _ => Option Error
  | .readRest => Option Error
  | .withLease => Option Error
  | .leaseDone => Option Error
  | .manifest => Except Error Manifest
  | .getLabel _ => Except Error String
  | .snapshotService _ => Bool
  | .supportedPlatforms _ => Except Error (Platform → Bool)
  | .configPlatform _ => Except Error Platform
  | .update _ _ => Option Error
  | .imageConfig => Except Error Descriptor

/-- Some answer to every call, for the parties a model leaves idle. -/
instance instInhabitedAnswer : (q : Query) → Inhabited (Answer q)
  | .stat _ | .commit _ _ | .remove _ | .push _ _ _ | .tempUnmount _ | .readRest | .withLease
  | .leaseDone | .update _ _ => ⟨(none : Option Error)⟩
  | .prepare _ _ => ⟨.ok []⟩
  | .apply desc _ => ⟨.ok desc⟩
  | .nowAndRandom => ⟨(0, 0, 0, 0)⟩
  | .readerAt _ => ⟨.ok []⟩
  | .runningInUserNS => ⟨false⟩
  | .tempMount _ | .getLabel _ | .configPlatform _ => ⟨.ok ""⟩
  | .manifest => ⟨.ok ⟨⟨"", "", 0⟩, []⟩⟩
  | .snapshotService _ => ⟨true⟩
  | .supportedPlatforms _ => ⟨.ok fun _ => true⟩
  | .imageConfig => ⟨.ok ⟨"", "", 0⟩⟩

/-- A call with the answer it got. -/
abbrev Event := Σ q : Query, Answer q

/-- Two events are equal when their calls are and their answers are. -/
@[simp] theorem event_eq_iff {q q' : Query} {a : Answer q} {a' : Answer q'} :
    (⟨q, a⟩ : Event) = ⟨q', a'⟩ ↔ q = q' ∧ HEq a a' :=
  ⟨fun h => by cases h; exact ⟨rfl, .rfl⟩, fun ⟨h, h'⟩ => by subst h; cases h'; rfl⟩

/-- A program of the client. -/
inductive Prog (α : Type) where
  | pure (a : α)
  | call (q : Query) (k : Answer q → Prog α)
  | panic (msg : String)
  | cut

namespace Prog

variable {α β : Type}

/-- Sequencing: a panic or a cut ends the program. -/
def bind : Prog α → (α → Prog β) → Prog β
  | pure a, f => f a
  | call q k, f => call q fun r => (k r).bind f
  | panic m, _ => panic m
  | cut, _ => cut

instance : Monad Prog where
  pure := pure
  bind := bind

@[simp] theorem pure_bind' (a : α) (f : α → Prog β) : (pure a >>= f) = f a := rfl

@[simp] theorem call_bind (q : Query) (k : Answer q → Prog α) (f : α → Prog β) :
    (call q k >>= f) = call q fun r => k r >>= f := rfl

@[simp] theorem panic_bind (m : String) (f : α → Prog β) : (panic m >>= f) = panic m := rfl

@[simp] theorem cut_bind (f : α → Prog β) : (cut >>= f) = cut := rfl

@[simp] theorem pure_eq (a : α) : (Pure.pure a : Prog α) = pure a := rfl

theorem bind_assoc (p : Prog α) (f : α → Prog β) {γ : Type} (g : β → Prog γ) :
    (p >>= f) >>= g = p >>= fun a => f a >>= g := by
  induction p with
  | pure a => rfl
  | call q k ih => simp only [call_bind, ih]
  | panic m => rfl
  | cut => rfl

/-- A call whose answer is the result. -/
def ask (q : Query) : Prog (Answer q) := call q pure

@[simp] theorem ask_bind (q : Query) (f : Answer q → Prog β) : (ask q >>= f) = call q f := rfl

/-! ### Runs -/

/-- `p`, answered with the events `es`, reaches `p'`. -/
inductive Runs : Prog α → List Event → Prog α → Prop
  | refl (p : Prog α) : Runs p [] p
  | call {q : Query} {k : Answer q → Prog α} {a : Answer q} {es : List Event} {p' : Prog α} :
      Runs (k a) es p' → Runs (call q k) (⟨q, a⟩ :: es) p'

theorem Runs.trans {p p' p'' : Prog α} {es es' : List Event} (h : Runs p es p')
    (h' : Runs p' es' p'') : Runs p (es ++ es') p'' := by
  induction h with
  | refl => exact h'
  | call _ ih => exact .call (ih h')

@[simp] theorem runs_pure {a : α} {es : List Event} {p' : Prog α} :
    Runs (pure a) es p' ↔ es = [] ∧ p' = pure a := by
  constructor
  · rintro ⟨⟩; exact ⟨rfl, rfl⟩
  · rintro ⟨rfl, rfl⟩; exact .refl _

@[simp] theorem runs_panic {m : String} {es : List Event} {p' : Prog α} :
    Runs (panic m) es p' ↔ es = [] ∧ p' = panic m := by
  constructor
  · rintro ⟨⟩; exact ⟨rfl, rfl⟩
  · rintro ⟨rfl, rfl⟩; exact .refl _

@[simp] theorem runs_cut {es : List Event} {p' : Prog α} :
    Runs cut es p' ↔ es = [] ∧ p' = cut := by
  constructor
  · rintro ⟨⟩; exact ⟨rfl, rfl⟩
  · rintro ⟨rfl, rfl⟩; exact .refl _

theorem runs_call {q : Query} {k : Answer q → Prog α} {es : List Event} {p' : Prog α} :
    Runs (call q k) es p' ↔
      (es = [] ∧ p' = call q k) ∨ ∃ a es', es = ⟨q, a⟩ :: es' ∧ Runs (k a) es' p' := by
  constructor
  · rintro (_ | ⟨h⟩)
    · exact .inl ⟨rfl, rfl⟩
    · exact .inr ⟨_, _, rfl, h⟩
  · rintro (⟨rfl, rfl⟩ | ⟨a, es', rfl, h⟩)
    · exact .refl _
    · exact .call h

theorem Runs.bind {p p' : Prog α} {es : List Event} (h : Runs p es p') (f : α → Prog β) :
    Runs (p >>= f) es (p' >>= f) := by
  induction h with
  | refl => exact .refl _
  | call _ ih => exact .call ih

/-- **A run of `p >>= f`** is still inside `p`, or `p` returned `a` after `es₁` and `f a` ran
on with the rest. -/
theorem Runs.of_bind {p : Prog α} {f : α → Prog β} {es : List Event} {r : Prog β}
    (h : Runs (p >>= f) es r) :
    (∃ p', Runs p es p' ∧ r = p' >>= f) ∨
      ∃ a es₁ es₂, es = es₁ ++ es₂ ∧ Runs p es₁ (pure a) ∧ Runs (f a) es₂ r := by
  induction p generalizing es with
  | pure a => exact .inr ⟨a, [], es, rfl, .refl _, h⟩
  | call q k ih =>
    rw [call_bind, runs_call] at h
    rcases h with ⟨rfl, rfl⟩ | ⟨a, es', rfl, h⟩
    · exact .inl ⟨_, .refl _, rfl⟩
    · rcases ih a h with ⟨p', hp, rfl⟩ | ⟨b, es₁, es₂, rfl, h₁, h₂⟩
      · exact .inl ⟨p', .call hp, rfl⟩
      · exact .inr ⟨b, _ :: es₁, es₂, rfl, .call h₁, h₂⟩
  | panic m =>
    obtain ⟨rfl, rfl⟩ := runs_panic.1 h
    exact .inl ⟨_, .refl _, rfl⟩
  | cut =>
    obtain ⟨rfl, rfl⟩ := runs_cut.1 h
    exact .inl ⟨_, .refl _, rfl⟩

/-- A run of `p >>= f` is a run of `p` and, once `p` returned `a`, a run of `f a`; it reached
`cut` only where `p` or `f a` did. -/
theorem Runs.split_bind {p : Prog α} {f : α → Prog β} {es : List Event} {r : Prog β}
    (h : Runs (p >>= f) es r) :
    ∃ es₁ es₂ p', es = es₁ ++ es₂ ∧ Runs p es₁ p' ∧
      ((es₂ = [] ∧ (r = cut → p' = cut)) ∨ ∃ a, p' = pure a ∧ Runs (f a) es₂ r) := by
  rcases h.of_bind with ⟨p', hp, rfl⟩ | ⟨a, es₁, es₂, rfl, h₁, h₂⟩
  · refine ⟨es, [], p', by simp, hp, ?_⟩
    cases p' with
    | pure a => exact .inr ⟨a, rfl, .refl _⟩
    | call q k => exact .inl ⟨rfl, nofun⟩
    | panic m => exact .inl ⟨rfl, nofun⟩
    | cut => exact .inl ⟨rfl, fun _ => rfl⟩
  · exact ⟨es₁, es₂, _, rfl, h₁, .inr ⟨a, rfl, h₂⟩⟩

/-- A run of `p >>= f` to a return is a return of `p` followed by a return of `f`. -/
theorem Runs.of_bind_pure {p : Prog α} {f : α → Prog β} {es : List Event} {b : β}
    (h : Runs (p >>= f) es (pure b)) :
    ∃ a es₁ es₂, es = es₁ ++ es₂ ∧ Runs p es₁ (pure a) ∧ Runs (f a) es₂ (pure b) := by
  rcases h.of_bind with ⟨p', hp, e⟩ | h
  · cases p' with
    | pure a => exact ⟨a, es, [], by simp, hp, e ▸ .refl _⟩
    | call q k => cases e
    | panic m => cases e
    | cut => cases e
  · exact h

/-- A run of `p >>= f` to a panic is a panic of `p`, or a return of `p` followed by a panic
of `f`. -/
theorem Runs.of_bind_panic {p : Prog α} {f : α → Prog β} {es : List Event} {m : String}
    (h : Runs (p >>= f) es (panic m)) :
    Runs p es (panic m) ∨
      ∃ a es₁ es₂, es = es₁ ++ es₂ ∧ Runs p es₁ (pure a) ∧ Runs (f a) es₂ (panic m) := by
  rcases h.of_bind with ⟨p', hp, e⟩ | h
  · cases p' with
    | pure a => exact .inr ⟨a, es, [], by simp, hp, e ▸ .refl _⟩
    | call q k => cases e
    | panic m' => cases e; exact .inl hp
    | cut => cases e
  · exact .inr h

/-! ### The calls a program can make -/

/-- Every call `p` can make, on every answer, satisfies `Q`. -/
def CallsOnly (Q : Query → Prop) : Prog α → Prop
  | pure _ => True
  | call q k => Q q ∧ ∀ a, (k a).CallsOnly Q
  | panic _ => True
  | cut => True

theorem CallsOnly.bind {Q : Query → Prop} {p : Prog α} {f : α → Prog β} (hp : p.CallsOnly Q)
    (hf : ∀ a, (f a).CallsOnly Q) : (p >>= f).CallsOnly Q := by
  induction p with
  | pure a => exact hf a
  | call q k ih => exact ⟨hp.1, fun a => ih a (hp.2 a)⟩
  | panic m => trivial
  | cut => trivial

/-- Every event of a run of such a program is of a call that satisfies `Q`. -/
theorem CallsOnly.runs {Q : Query → Prop} {p p' : Prog α} {es : List Event}
    (hp : p.CallsOnly Q) (h : Runs p es p') : ∀ ev ∈ es, Q ev.1 := by
  induction h with
  | refl => simp
  | call _ ih =>
    rintro ev (_ | ⟨_, hev⟩)
    exacts [hp.1, ih (hp.2 _) ev hev]

end Prog

end AttributesClient
