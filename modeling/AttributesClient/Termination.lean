import AttributesClient.Store

/-!
# Termination and the cost of `applyArtifacts`

A frame of `applyArtifacts` prepares a view of its parent chain in a loop.  It retries under
a new key for as long as the store answers Already-Exists.  On the first Not-Found it builds
the parent chain first, by the recursive call on all artifacts but the last, and then sets
`artifacts = nil`, so that a second Not-Found returns an error instead of recursing again.
Every other answer ends the loop.  The measure of the loop is the pair of the length of
`artifacts` and whether the ancestor build already ran: every turn not answered
Already-Exists lowers it, so apart from its Already-Exists answers a frame goes through at
most two turns, and each recursive call is on one artifact less.

`FrameTrace m d es` is that accounting as a shape of the events of a run: the frame's own
events, with at most two Prepares not answered Already-Exists, one Apply and one Commit,
around at most one nested trace on `m - 1` artifacts, `d` frames deep in all.

Results:

* `prepareLoop_turn`: what one turn of the loop can do;
* `prepareLoop_runs`: a run of the loop is its own events around at most
  one run of the recursive call, and a loop that ran out of turns met an Already-Exists answer
  for each turn but the one that recursed;
* `FrameTrace.bounds`: a trace on `m` artifacts is at most `m` frames deep and holds at most
  `2m - 1` Prepares not answered Already-Exists, `m` Applies and `m` Commits;
* `applyArtifacts_terminates`: every run of a frame on `n ≥ 1` artifacts is such a trace, and a
  run whose fuel exceeds `n` plus the Already-Exists answers it met does not stop for lack of
  fuel.

What this does not say: the bounds count events whatever the answers were, not which artifact
each Apply was for (`applyArtifacts_commits_aligned` says where each Commit goes); and a store
that answers Already-Exists forever keeps the loop going, in the model as in the code.
-/

namespace AttributesClient

/-! ### The cost of a run -/

/-- What an event counts as in the cost of a run of `applyArtifacts`. -/
inductive Cost where
  /-- A Prepare answered Already-Exists, which the loop retries under a new key. -/
  | retried
  /-- A Prepare with any other answer. -/
  | prepared
  /-- An Apply. -/
  | applied
  /-- A Commit. -/
  | committed
  /-- Anything else: the clock, a Remove. -/
  | free
  deriving DecidableEq

/-- The cost of one event. -/
def Event.cost : Event → Cost
  | ⟨.prepare _ _, .error e⟩ => if IsAlreadyExists e then .retried else .prepared
  | ⟨.prepare _ _, .ok _⟩ => .prepared
  | ⟨.apply _ _, _⟩ => .applied
  | ⟨.commit _ _, _⟩ => .committed
  | _ => .free

/-- How many events of `es` cost `c`. -/
def tally (c : Cost) (es : List Event) : Nat := es.countP fun e => e.cost = c

@[simp] theorem tally_nil (c : Cost) : tally c [] = 0 := rfl

@[simp] theorem tally_cons (c : Cost) (e : Event) (es : List Event) :
    tally c (e :: es) = tally c es + if e.cost = c then 1 else 0 := by
  simp [tally, List.countP_cons]

@[simp] theorem tally_append (c : Cost) (es es' : List Event) :
    tally c (es ++ es') = tally c es + tally c es' := List.countP_append _ _ _

/-- `es` holds at most `p` Prepares not answered Already-Exists, `a` Applies and `c` Commits. -/
def Within (p a c : Nat) (es : List Event) : Prop :=
  tally .prepared es ≤ p ∧ tally .applied es ≤ a ∧ tally .committed es ≤ c

theorem within_nil (p a c : Nat) : Within p a c [] := by simp [Within]

theorem Within.mono {p a c p' a' c' : Nat} {es : List Event} (h : Within p a c es) (hp : p ≤ p')
    (ha : a ≤ a') (hc : c ≤ c') : Within p' a' c' es := by
  simp only [Within] at *
  omega

theorem Within.append {p a c p' a' c' : Nat} {es es' : List Event} (h : Within p a c es)
    (h' : Within p' a' c' es') : Within (p + p') (a + a') (c + c') (es ++ es') := by
  simp only [Within, tally_append] at *
  omega

/-! ### Traces of frames -/

/-- The shape of the events of a frame of `applyArtifacts` on `m` artifacts whose recursion
went `d` frames deep.  Either the frame did not recurse, and its events hold at most one
Prepare not answered Already-Exists, one Apply and one Commit; or `1 < m`, and its own events
`own₁` and `own₂` stand around the trace of one frame on `m - 1` artifacts and hold at most
two such Prepares, one Apply and one Commit. -/
inductive FrameTrace : Nat → Nat → List Event → Prop
  | last {m : Nat} {own : List Event} : 0 < m → Within 1 1 1 own → FrameTrace m 1 own
  | recurse {m d : Nat} {own₁ sub own₂ : List Event} : 1 < m → FrameTrace (m - 1) d sub →
      Within 2 1 1 (own₁ ++ own₂) → FrameTrace m (d + 1) (own₁ ++ sub ++ own₂)

/-- A trace on `m` artifacts is at most `m` frames deep and holds at most `2m - 1` Prepares not
answered Already-Exists, `m` Applies and `m` Commits. -/
theorem FrameTrace.bounds {m d : Nat} {es : List Event} (h : FrameTrace m d es) :
    d ≤ m ∧ Within (2 * m - 1) m m es := by
  induction h with
  | last hm hw => simp only [Within] at *; omega
  | recurse hm _ hw ih => simp only [Within, tally_append] at *; omega

/-! ### Runs of the loop -/

section Loop

variable {rec : List Artifact → List Digest → Prog (Option Error)} {pchain : List Digest}
  {parent chainID : String}

/-- **One turn of the loop**: it stops before Prepare answers or returns on the answer, with at
most one Prepare not answered Already-Exists; or it is answered Already-Exists and goes on with
the same artifacts; or it is answered Not-Found with more than one artifact, and then runs the
recursive call, stopping in it or going on with no artifacts. -/
theorem prepareLoop_turn {t : Nat} {arts : List Artifact} {es : List Event}
    {q : Prog (Except Error (String × List Mount))}
    (h : Prog.Runs (prepareLoop rec pchain parent chainID (t + 1) arts) es q) :
    (Within 1 0 0 es ∧ q ≠ .cut) ∨
    (∃ pre es', es = pre ++ es' ∧ Within 0 0 0 pre ∧ tally .retried pre = 1 ∧
      Prog.Runs (prepareLoop rec pchain parent chainID t arts) es' q) ∨
    (1 < arts.length ∧ ∃ pre sub rest q', es = pre ++ sub ++ rest ∧ Within 1 0 0 pre ∧
      Prog.Runs (rec (arts.take (arts.length - 1)) pchain) sub q' ∧
      ((rest = [] ∧ (q = .cut → q' = .cut)) ∨
        Prog.Runs (prepareLoop rec pchain parent chainID t []) rest q)) := by
  simp only [prepareLoop, uniquePart, Prog.call_bind, Prog.pure_bind', Prog.runs_call] at h
  rcases h with ⟨rfl, rfl⟩ | ⟨tb, es, rfl, ⟨rfl, rfl⟩ | ⟨a, es, rfl, h⟩⟩
  · exact .inl ⟨within_nil 1 0 0, nofun⟩
  · exact .inl ⟨by simp [Within, Event.cost], nofun⟩
  cases a with
  | ok ms =>
    simp only [prepareNext, Prog.runs_pure] at h
    obtain ⟨rfl, rfl⟩ := h
    exact .inl ⟨by simp [Within, Event.cost], nofun⟩
  | error err =>
    simp only [prepareNext] at h
    split_ifs at h with h1 h2
    · refine .inr (.inr ⟨by simp at h1; exact h1.2, ?_⟩)
      have hpre : Within 1 0 0 [⟨.nowAndRandom, tb⟩,
          ⟨.prepare (unpackKey (uniqueText tb) chainID) parent, .error err⟩] := by
        cases h : IsAlreadyExists err <;> simp [Within, Event.cost, h]
      obtain ⟨sub, rest, q', rfl, hsub, ⟨rfl, hq⟩ | ⟨b, rfl, h⟩⟩ := h.split_bind
      · exact ⟨_, sub, [], _, by simp, hpre, hsub, .inl ⟨rfl, hq⟩⟩
      refine ⟨_, sub, rest, _, by simp, hpre, hsub, ?_⟩
      rcases b with _ | e
      · exact .inr h
      · simp only at h
        split_ifs at h
        · exact .inr h
        · obtain ⟨rfl, rfl⟩ := Prog.runs_pure.1 h
          exact .inl ⟨rfl, nofun⟩
    · exact .inr (.inl ⟨[_, _], es, rfl, by simp [Within, Event.cost, h2],
        by simp [Event.cost, h2], h⟩)
    · simp only [Prog.runs_pure] at h
      obtain ⟨rfl, rfl⟩ := h
      exact .inl ⟨by simp [Within, Event.cost, h2], nofun⟩

/-- **A run of the loop** either never recursed: it holds at most one Prepare not answered
Already-Exists, and it ran out of turns only after an Already-Exists answer for each.  Or it is
its own events around one run of the recursive call on all artifacts but the last, with at most
two Prepares not answered Already-Exists of its own, and it stopped for lack of turns only
inside the recursive call or after an Already-Exists answer for each turn but the one that
recursed. -/
theorem prepareLoop_runs :
    ∀ t {arts : List Artifact} {es : List Event} {q : Prog (Except Error (String × List Mount))},
      Prog.Runs (prepareLoop rec pchain parent chainID t arts) es q →
        (Within 1 0 0 es ∧ (q = .cut → t ≤ tally .retried es)) ∨
        (1 < arts.length ∧ ∃ own₁ sub own₂ q', es = own₁ ++ sub ++ own₂ ∧
          Prog.Runs (rec (arts.take (arts.length - 1)) pchain) sub q' ∧
          Within 2 0 0 (own₁ ++ own₂) ∧
          (q = .cut → q' = .cut ∨ t ≤ tally .retried (own₁ ++ own₂) + 1))
  | 0, arts, es, q, h => by
    simp only [prepareLoop, Prog.runs_cut] at h
    obtain ⟨rfl, rfl⟩ := h
    exact .inl ⟨within_nil 1 0 0, fun _ => le_rfl⟩
  | t + 1, arts, es, q, h => by
    rcases prepareLoop_turn h with ⟨hw, hq⟩ | ⟨pre, es', rfl, hpre, hr, h⟩ |
      ⟨h1, pre, sub, rest, q', rfl, hpre, hsub, ⟨rfl, hq⟩ | h⟩
    · exact .inl ⟨hw, fun hc => absurd hc hq⟩
    · rcases prepareLoop_runs t h with ⟨hw, hq⟩ | ⟨h1, own₁, sub, own₂, q', rfl, hsub, hw, hq⟩
      · refine .inl ⟨hpre.append hw, fun hc => ?_⟩
        have := hq hc
        simp only [tally_append]
        omega
      · refine .inr ⟨h1, pre ++ own₁, sub, own₂, q', by simp, hsub, by simpa using hpre.append hw,
          fun hc => (hq hc).imp id fun ht => ?_⟩
        simp only [tally_append] at *
        omega
    · exact .inr ⟨h1, pre, sub, [], q', by simp, hsub,
        by simpa using hpre.mono (by omega) le_rfl le_rfl, fun hc => .inl (hq hc)⟩
    · rcases prepareLoop_runs t h with ⟨hw, hq⟩ | ⟨h0, -⟩
      · refine .inr ⟨h1, pre, sub, rest, q', rfl, hsub, hpre.append hw, fun hc => ?_⟩
        have := hq hc
        simp only [tally_append]
        omega
      · simp at h0

end Loop

/-! ### After the loop -/

/-- The deferred cleanup issues a Remove at most. -/
theorem cleanup_within {key : String} {y : Option Error} {es : List Event} {q : Prog (Option Error)}
    (h : Prog.Runs (cleanup key y) es q) : Within 0 0 0 es ∧ q ≠ .cut := by
  rcases y with _ | e
  · simp only [cleanup, Prog.runs_pure] at h
    obtain ⟨rfl, rfl⟩ := h
    exact ⟨within_nil 0 0 0, nofun⟩
  · simp only [cleanup, Prog.runs_call] at h
    rcases h with ⟨rfl, rfl⟩ | ⟨z, es, rfl, h⟩
    · exact ⟨within_nil 0 0 0, nofun⟩
    · simp only [Prog.runs_pure] at h
      obtain ⟨rfl, rfl⟩ := h
      exact ⟨by simp [Within, Event.cost], nofun⟩

/-- Applying and committing issues one Apply and at most one Commit. -/
theorem applyAndCommit_within {cid key : String} {artifact : Artifact} {mounts : List Mount}
    {es : List Event} {q : Prog (Option Error)}
    (h : Prog.Runs (applyAndCommit cid key artifact mounts) es q) : Within 0 1 1 es ∧ q ≠ .cut := by
  simp only [applyAndCommit, Prog.runs_call] at h
  rcases h with ⟨rfl, rfl⟩ | ⟨a, es, rfl, h⟩
  · exact ⟨within_nil 0 1 1, nofun⟩
  have hend : ∀ {r : Option Error}, Prog.Runs (.pure r) es q →
      Within 0 1 1 (⟨.apply artifact.blob mounts, a⟩ :: es) ∧ q ≠ .cut := fun h => by
    obtain ⟨rfl, rfl⟩ := Prog.runs_pure.1 h
    exact ⟨by simp [Within, Event.cost], nofun⟩
  rcases a with e | d
  · exact hend h
  · simp only at h
    split_ifs at h
    · exact hend h
    · rcases Prog.runs_call.1 h with ⟨rfl, rfl⟩ | ⟨y, es, rfl, hy⟩
      · exact ⟨by simp [Within, Event.cost], nofun⟩
      · obtain ⟨rfl, hq⟩ : es = [] ∧ q ≠ .cut := by
          rcases y with _ | e <;> simp only [Prog.runs_pure] at hy <;> exact ⟨hy.1, hy.2 ▸ nofun⟩
        exact ⟨by simp [Within, Event.cost], hq⟩

/-- What follows the loop issues no Prepare, at most one Apply and one Commit, and does not run
out of fuel. -/
theorem frameRest_within {cid : String} {artifact : Artifact}
    {x : Except Error (String × List Mount)} {es : List Event} {q : Prog (Option Error)}
    (h : Prog.Runs (frameRest cid artifact x) es q) : Within 0 1 1 es ∧ q ≠ .cut := by
  rcases x with e | ⟨key, mounts⟩
  · simp only [frameRest, Prog.runs_pure] at h
    obtain ⟨rfl, rfl⟩ := h
    exact ⟨within_nil 0 1 1, nofun⟩
  · obtain ⟨es₁, es₂, p', rfl, h₁, ⟨rfl, hq⟩ | ⟨y, rfl, h₂⟩⟩ := Prog.Runs.split_bind h
    · exact ⟨by simpa using (applyAndCommit_within h₁).1,
        fun hc => (applyAndCommit_within h₁).2 (hq hc)⟩
    · exact ⟨by simpa using (applyAndCommit_within h₁).1.append (cleanup_within h₂).1,
        (cleanup_within h₂).2⟩

/-! ### Frames -/

section

variable (fromBytes : String → Digest)

/-- Every run of a frame on a non-empty list of artifacts is a trace of frames, and a run that
stopped for lack of fuel had no more fuel than its artifacts and its Already-Exists answers. -/
theorem applyArtifacts_frameTrace :
    ∀ fuel {artifacts : List Artifact} {chain : List Digest} {es : List Event}
      {q : Prog (Option Error)}, artifacts ≠ [] →
      Prog.Runs (applyArtifacts fromBytes fuel artifacts chain) es q →
        (∃ d, FrameTrace artifacts.length d es) ∧
          (q = .cut → fuel ≤ artifacts.length + tally .retried es)
  | 0, artifacts, chain, es, q, hne, h => by
    simp only [applyArtifacts, Prog.runs_cut] at h
    obtain ⟨rfl, rfl⟩ := h
    exact ⟨⟨1, .last (List.length_pos.2 hne) (within_nil 1 1 1)⟩, fun _ => Nat.zero_le _⟩
  | fuel + 1, artifacts, chain, es, q, hne, h => by
    have hm := List.length_pos.2 hne
    have hpanic : ∀ m, Prog.Runs (.panic m) es q →
        (∃ d, FrameTrace artifacts.length d es) ∧
          (q = .cut → fuel + 1 ≤ artifacts.length + tally .retried es) := fun m h => by
      obtain ⟨rfl, rfl⟩ := Prog.runs_panic.1 h
      exact ⟨⟨1, .last hm (within_nil 1 1 1)⟩, nofun⟩
    simp only [applyArtifacts] at h
    rcases hs : sliceTo chain (chain.length - 1) with _ | pchain
    · simp only [hs] at h
      exact hpanic _ h
    rcases hi : index artifacts (artifacts.length - 1) with _ | artifact
    · simp only [hs, hi] at h
      exact hpanic _ h
    simp only [hs, hi] at h
    have hsub : ∀ {sub q'}, 1 < artifacts.length →
        Prog.Runs (applyArtifacts fromBytes fuel (artifacts.take (artifacts.length - 1)) pchain)
          sub q' → (∃ d, FrameTrace (artifacts.length - 1) d sub) ∧
            (q' = .cut → fuel ≤ artifacts.length - 1 + tally .retried sub) := fun h1 h => by
      have hlen : (artifacts.take (artifacts.length - 1)).length = artifacts.length - 1 := by
        simp only [List.length_take]; omega
      simpa only [hlen] using applyArtifacts_frameTrace fuel
        (List.ne_nil_of_length_pos (by omega : 0 < (artifacts.take _).length)) h
    obtain ⟨es₁, es₂, q₁, rfl, hl, hrest⟩ := h.split_bind
    have hrest : Within 0 1 1 es₂ ∧ (q = .cut → q₁ = .cut) := by
      rcases hrest with ⟨rfl, hq⟩ | ⟨x, -, h₂⟩
      · exact ⟨within_nil 0 1 1, hq⟩
      · exact ⟨(frameRest_within h₂).1, fun hc => absurd hc (frameRest_within h₂).2⟩
    rcases prepareLoop_runs fuel hl with ⟨hw, hq⟩ | ⟨h1, own₁, sub, own₂, q', rfl, hr, hw, hq⟩
    · refine ⟨⟨1, .last hm (by simpa using hw.append hrest.1)⟩, fun hc => ?_⟩
      have := hq (hrest.2 hc)
      simp only [tally_append]
      omega
    · obtain ⟨⟨d, ht⟩, hq'⟩ := hsub h1 hr
      have ht := @FrameTrace.recurse _ _ own₁ sub (own₂ ++ es₂) h1 ht
        (by simpa using hw.append hrest.1)
      refine ⟨⟨d + 1, by simpa using ht⟩, fun hc => ?_⟩
      simp only [tally_append] at hq' hq ⊢
      rcases hq (hrest.2 hc) with hc | hc
      · have := hq' hc
        omega
      · omega

/-- **`applyArtifacts` terminates**: under any answers of the store and the applier, every run
of a frame on `n ≥ 1` artifacts is a trace of frames at most `n` deep, each of which recursed
at most once and issued at most two Prepares not answered Already-Exists; the run issues at
most `2n - 1` of them, `n` Applies and `n` Commits; and a run whose fuel exceeds `n` plus the
Already-Exists answers it met has not stopped for lack of fuel. -/
theorem applyArtifacts_terminates {fuel : Nat} {artifacts : List Artifact}
    {chain : List Digest} {es : List Event} {p : Prog (Option Error)} (hne : artifacts ≠ [])
    (h : Prog.Runs (applyArtifacts fromBytes fuel artifacts chain) es p) :
    (∃ depth ≤ artifacts.length, FrameTrace artifacts.length depth es) ∧
      tally .prepared es ≤ 2 * artifacts.length - 1 ∧ tally .applied es ≤ artifacts.length ∧
      tally .committed es ≤ artifacts.length ∧
      (artifacts.length + tally .retried es < fuel → p ≠ .cut) := by
  obtain ⟨⟨d, ht⟩, hq⟩ := applyArtifacts_frameTrace fromBytes fuel hne h
  obtain ⟨hd, hp, ha, hc⟩ := ht.bounds
  exact ⟨⟨d, hd, ht⟩, hp, ha, hc, fun hf hcut => absurd (hq hcut) (by omega)⟩

/-- A frame on two layers against an empty store: its first Prepare finds no parent, the frame
builds the first layer in a nested frame, and the run reaches the bound of `2n - 1 = 3` Prepares. -/
theorem applyArtifacts_terminates_two :
    ∃ es p w, Prog.exec (contractEnv quietOutside)
        (applyArtifacts id 3 [⟨⟨"t", "a", 1⟩⟩, ⟨⟨"t", "b", 1⟩⟩] ["a", "b"]) ⟨⟨[], []⟩, 0⟩ =
        (es, p, w) ∧
      (⟨.prepare "extract-0-AAAA a b" "a", .error (.sentinel .notFound)⟩ : Event) ∈ es.take 2 ∧
      [(⟨⟨"t", "a", 1⟩⟩ : Artifact), ⟨⟨"t", "b", 1⟩⟩] ≠ [] ∧
      ((∃ depth ≤ 2, FrameTrace 2 depth es) ∧ tally .prepared es ≤ 2 * 2 - 1 ∧
        tally .applied es ≤ 2 ∧ tally .committed es ≤ 2 ∧ (2 + tally .retried es < 3 → p ≠ .cut)) ∧
      tally .prepared es = 3 ∧ p = .pure none := by
  have hr := @Prog.exec_runs _ _ (contractEnv quietOutside)
    (applyArtifacts id 3 [⟨⟨"t", "a", 1⟩⟩, ⟨⟨"t", "b", 1⟩⟩] ["a", "b"]) ⟨⟨[], []⟩, 0⟩
  exact ⟨_, _, _, Prod.ext rfl (Prod.ext rfl rfl), List.mem_cons_of_mem _ (List.mem_cons_self _ _),
    List.cons_ne_nil _ _, applyArtifacts_terminates id (List.cons_ne_nil _ _) hr, by decide, rfl⟩

end

end AttributesClient
