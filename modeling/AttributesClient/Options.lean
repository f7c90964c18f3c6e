import AttributesClient.Basic

/-!
# Environment defaults and overrides (`cmd/rcl/commands/options.go`)

`replaceOrAppendEnvValues` merges the environment of a container spec into the image's: an
override `k=v` replaces the entry of `k`, a bare `k` unsets it, an override of a key the image
does not have is appended, and unset entries are dropped at the end.  The Go function does this
with a map from each key to the index of its last entry, in-place writes, and a loop that
deletes from the slice while walking it.

`envReference` is the same merge said entry by entry, key by key over the defaults;
`replaceOrAppendEnvValues_eq_envReference` proves the two equal on all inputs.  The loop over
the overrides keeps `envResults` (`envResults_foldl`); the deletion loop is a filter
(`removeUnset_eq_filter`).

`withImageConfigArgs` is the spec option this merge serves.  On a Linux spec the process runs
the image's entrypoint and then the given arguments, or the image's `Cmd`, in the image's
working directory or `/`, with the merged environment (`withImageConfigArgs_linux`); on a
Windows spec the only error is an empty command (`withImageConfigArgs_windows_error`); and the
function panics exactly where it reaches the unimplemented `escapeAndCombineArgs`
(`withImageConfigArgs_eq_none_iff`).
-/

namespace AttributesClient

/-- The key of an environment entry: the text before its first `=`
(`k, _, _ := strings.Cut(e, "=")`). -/
def envKey (e : String) : String := (cut e '=').1

/-- Whether an override sets a value (it has a `=`) rather than unsetting its key. -/
def envSets (e : String) : Bool := (cut e '=').2.2

/-! ### The code -/

/-- The deletion loop of lines 174–179, from index `i`: an entry `""` is cut out of the slice
and the same index is looked at again. -/
def removeUnset (results : List String) (i : Nat) : List String :=
  if h : i < results.length then
    if results[i] = "" then removeUnset (results.eraseIdx i) i
    else removeUnset results (i + 1)
  else results
termination_by results.length - i
decreasing_by
  all_goals simp_wf
  · rw [List.length_eraseIdx, if_pos h]; omega
  · omega

/-- The body of the loop over the overrides (lines 155–171), with the key cache `cache`. -/
def envOverride (cache : List (String × Nat)) (results : List String) (value : String) :
    List String :=
  if !envSets value then
    match cache.lookup (envKey value) with
    | some i => results.set i ""
    | none => results
  else
    match cache.lookup (envKey value) with
    | some i => results.set i value
    | none => results ++ [value]

/-- The key cache of lines 147–153: each key with the index of its last entry, the last
assignment first. -/
def envCache (defaults : List String) : List (String × Nat) :=
  defaults.enum.foldl (fun cache ie => (envKey ie.2, ie.1) :: cache) []

/-- `replaceOrAppendEnvValues` (lines 146–182).  `results` starts as a copy of `defaults`, so
the caller's slice is never written. -/
def replaceOrAppendEnvValues (defaults overrides : List String) : List String :=
  removeUnset (overrides.foldl (envOverride (envCache defaults)) defaults) 0

/-- The environment `WithImageConfigArgs` gives a Linux process (lines 49–53): the image's
environment, or the default `PATH` when it has none, merged with the spec's. -/
def linuxProcessEnv (configEnv specEnv : List String) : List String :=
  replaceOrAppendEnvValues
    (if configEnv.length = 0 then
      ["PATH=/usr/local/sbin:/usr/local/bin:/usr/sbin:/usr/bin:/sbin:/bin"]
    else configEnv) specEnv

/-! ### The reference -/

/-- The last override that mentions the key `k`, as `k=...` or as the bare `k`. -/
def lastMention (O : List String) (k : String) : Option String :=
  (O.filter fun v => envKey v = k).getLast?

/-- What becomes of the entry `e` at index `i` of `D`: when it is the last entry of its key and
`O` mentions the key, the last mention replaces it, or removes it (`none`) if that mention is
the bare key. -/
def envEntry (D O : List String) (i : Nat) (e : String) : Option String :=
  if (D.drop (i + 1)).all fun d => envKey d ≠ envKey e then
    match lastMention O (envKey e) with
    | some v => if envSets v then some v else none
    | none => some e
  else some e

/-- The overrides that set a key no entry of `D` has, in their order. -/
def envAppended (D O : List String) : List String :=
  O.filter fun v => envSets v ∧ D.all fun d => envKey d ≠ envKey v

/-- The merge said entry by entry: the entries of `D` with their last mentions applied, then the
new keys, without removed and empty entries. -/
def envReference (D O : List String) : List String :=
  ((D.mapIdx (envEntry D O)).filterMap id ++ envAppended D O).filter (· ≠ "")

/-! ### The deletion loop is a filter -/

theorem removeUnset_eq_filter (results : List String) (i : Nat) :
    removeUnset results i = results.take i ++ (results.drop i).filter (· ≠ "") := by
  induction results, i using removeUnset.induct with
  | case1 results i h he ih =>
    rw [removeUnset, dif_pos h, if_pos he, ih, List.eraseIdx_eq_take_drop_succ,
      List.take_append_of_le_length (by simp; omega), List.take_take, min_self,
      List.drop_append_of_le_length (by simp; omega),
      List.drop_eq_nil_of_le (List.length_take_le _ _), List.nil_append,
      List.drop_eq_getElem_cons h]
    simp [he]
  | case2 results i h he ih =>
    rw [removeUnset, dif_pos h, if_neg he, ih, List.drop_eq_getElem_cons h,
      ← List.take_concat_get' _ _ h]
    simp only [List.filter_cons, he, ne_eq, not_false_eq_true, decide_True, ↓reduceIte,
      List.append_assoc, List.singleton_append]
  | case3 results i h =>
    rw [removeUnset, dif_neg h, List.drop_of_length_le (by omega),
      List.take_of_length_le (by omega)]
    simp

/-! ### The key cache -/

/-- `i` is the index of the last entry of `D` whose key is `k`. -/
def IsLastKey (D : List String) (i : Nat) (k : String) : Prop :=
  ∃ h : i < D.length, envKey D[i] = k ∧ ∀ j (hj : j < D.length), i < j → envKey D[j] ≠ k

theorem IsLastKey.unique {D : List String} {i j : Nat} {k : String} (hi : IsLastKey D i k)
    (hj : IsLastKey D j k) : i = j := by
  obtain ⟨hi, hik, hi'⟩ := hi
  obtain ⟨hj, hjk, hj'⟩ := hj
  by_contra hne
  rcases Nat.lt_or_gt_of_ne hne with h | h
  · exact hi' j hj h hjk
  · exact hj' i hi h hik

theorem envCache_append (D : List String) (e : String) :
    envCache (D ++ [e]) = (envKey e, D.length) :: envCache D := by
  simp [envCache, List.enum_append, List.enumFrom_singleton]

/-- The cache finds, for a key, the index of its last entry, and nothing for a key no entry
has. -/
theorem envCache_lookup (D : List String) (k : String) :
    (∀ i, (envCache D).lookup k = some i → IsLastKey D i k) ∧
      ((envCache D).lookup k = none → ∀ d ∈ D, envKey d ≠ k) := by
  induction D using List.reverseRecOn with
  | nil => simp [envCache]
  | append_singleton D e ih =>
    rw [envCache_append, List.lookup_cons]
    by_cases he : envKey e = k
    · have : (k == envKey e) = true := beq_iff_eq.2 he.symm
      simp only [this, Option.some.injEq, reduceCtorEq, false_implies, and_true]
      rintro i rfl
      refine ⟨by simp, by rw [List.getElem_concat_length _ _ _ rfl]; exact he,
        fun j hj hij => by simp at hj; omega⟩
    · have : (k == envKey e) = false := beq_false_of_ne (Ne.symm he)
      simp only [this]
      refine ⟨fun i hi => ?_, fun hn d hd => ?_⟩
      · obtain ⟨hlt, hik, hlast⟩ := ih.1 i hi
        refine ⟨by simp; omega, by rwa [List.getElem_append_left hlt], fun j hj hij => ?_⟩
        rcases Nat.lt_or_ge j D.length with hjD | hjD
        · rw [List.getElem_append_left hjD]; exact hlast j hjD hij
        · simp at hj
          obtain rfl : j = D.length := by omega
          rw [List.getElem_concat_length _ _ _ rfl]
          exact he
      · rcases List.mem_append.1 hd with hd | hd
        · exact ih.2 hn d hd
        · simp at hd; exact hd ▸ he

/-- The test of `envEntry`: no later entry has the key. -/
theorem all_drop_iff {D : List String} {i : Nat} {k : String} :
    ((D.drop (i + 1)).all fun d => envKey d ≠ k) = true ↔
      ∀ j (hj : j < D.length), i < j → envKey D[j] ≠ k := by
  simp only [List.all_eq_true, decide_eq_true_eq, List.forall_mem_iff_getElem, List.length_drop,
    List.getElem_drop]
  constructor
  · intro h j hj hij
    obtain ⟨m, rfl⟩ : ∃ m, j = i + 1 + m := ⟨j - (i + 1), by omega⟩
    exact h m (by omega)
  · intro h m hm
    exact h _ _ (by omega)

/-! ### The loop over the overrides -/

/-- `results` once the loop has read the overrides `O`: the entries of `D` as `envEntry` makes
them, `""` for a removed one, then the appended overrides. -/
def envResults (D O : List String) : List String :=
  D.mapIdx (fun i e => (envEntry D O i e).getD "") ++ envAppended D O

theorem lastMention_append (O : List String) (v k : String) :
    lastMention (O ++ [v]) k = if envKey v = k then some v else lastMention O k := by
  unfold lastMention
  split_ifs with h <;> simp [List.filter_append, h]

theorem envEntry_append_of_ne {D O : List String} {v e : String} (i : Nat)
    (h : envKey v ≠ envKey e) : envEntry D (O ++ [v]) i e = envEntry D O i e := by
  simp [envEntry, lastMention_append, h]

/-- An entry of `D` that is not the last of its key keeps its value. -/
theorem envEntry_of_not_last {D O : List String} {i : Nat} (hi : i < D.length)
    (h : ¬ ∀ j (hj : j < D.length), i < j → envKey D[j] ≠ envKey D[i]) :
    envEntry D O i D[i] = some D[i] := by
  rw [envEntry, if_neg (mt all_drop_iff.1 h)]

/-- One turn of the loop keeps `envResults`. -/
theorem envOverride_envResults (D O : List String) (v : String) :
    envOverride (envCache D) (envResults D O) v = envResults D (O ++ [v]) := by
  obtain ⟨hsome, hnone⟩ := envCache_lookup D (envKey v)
  unfold envOverride envResults
  cases hc : (envCache D).lookup (envKey v) with
  | none =>
    have hn := hnone hc
    have hentries : D.mapIdx (fun i e => (envEntry D (O ++ [v]) i e).getD "") =
        D.mapIdx (fun i e => (envEntry D O i e).getD "") :=
      List.ext_getElem (by simp) fun j _ _ => by
        simp [envEntry_append_of_ne j (Ne.symm (hn _ (List.getElem_mem _)))]
    have happ : envAppended D (O ++ [v]) = envAppended D O ++ if envSets v then [v] else [] := by
      simp only [envAppended, List.filter_append, List.filter_singleton]
      split_ifs <;> simp_all
    cases hs : envSets v <;> simp [hentries, happ, hs]
  | some i =>
    obtain ⟨hi, hik, hlast⟩ := hsome i hc
    have happ : envAppended D (O ++ [v]) = envAppended D O := by
      have hD : ¬ ∀ x ∈ D, envKey x ≠ envKey v := fun h => h _ (List.getElem_mem _) hik
      simp [envAppended, List.filter_append, hD]
    have hentries (x : String) (hx : x = if envSets v then v else "") :
        (D.mapIdx fun j e => (envEntry D O j e).getD "").set i x =
          D.mapIdx fun j e => (envEntry D (O ++ [v]) j e).getD "" := by
      refine List.ext_getElem (by simp) fun j _ hj => ?_
      simp only [List.getElem_set, List.getElem_mapIdx]
      split_ifs with hij
      · subst hij
        have hl : ∀ j (hj : j < D.length), i < j → envKey D[j] ≠ envKey D[i] := hik ▸ hlast
        rw [envEntry, if_pos (all_drop_iff.2 hl), lastMention_append, if_pos hik.symm, hx]
        split_ifs with hs <;> simp [hs]
      · simp only [List.length_mapIdx] at hj
        by_cases hk : envKey D[j] = envKey v
        · have hnl : ¬ ∀ m (hm : m < D.length), j < m → envKey D[m] ≠ envKey D[j] :=
            fun hl => hij (IsLastKey.unique ⟨hi, hik, hlast⟩ ⟨hj, hk, hk ▸ hl⟩)
          rw [envEntry_of_not_last hj hnl, envEntry_of_not_last hj hnl]
        · rw [envEntry_append_of_ne j (Ne.symm hk)]
    cases hs : envSets v
    · simp only [hs, Bool.not_false, ↓reduceIte]
      rw [List.set_append_left _ _ (by simpa using hi), hentries "" (by simp [hs]), happ]
    · simp only [hs, Bool.not_true, Bool.false_eq_true, ↓reduceIte]
      rw [List.set_append_left _ _ (by simpa using hi), hentries v (by simp [hs]), happ]

/-- The whole loop leaves `envResults D O`. -/
theorem envResults_foldl (D O : List String) :
    O.foldl (envOverride (envCache D)) D = envResults D O := by
  induction O using List.reverseRecOn with
  | nil =>
    refine List.ext_getElem (by simp [envResults, envAppended]) fun j h _ => ?_
    simp [envResults, envAppended, envEntry, lastMention]
  | append_singleton O v ih =>
    rw [List.foldl_append, ih, List.foldl_cons, List.foldl_nil, envOverride_envResults]

theorem filter_map_getD (l : List (Option String)) :
    (l.map (·.getD "")).filter (· ≠ "") = (l.filterMap id).filter (· ≠ "") := by
  induction l with
  | nil => rfl
  | cons x l ih =>
    cases x with
    | none => simpa [List.filter_cons] using ih
    | some a => simp only [List.map_cons, List.filterMap_cons, id, Option.getD_some,
        List.filter_cons, ih]

/-- **`replaceOrAppendEnvValues` is the merge `envReference` says**, for all defaults and all
overrides: each key's last entry in the defaults takes the key's last mention in the overrides
(and is removed when that mention is the bare key), the overrides setting new keys are appended
in their order, and removed and empty entries are dropped, the rest keeping its order.  The
defaults are only read: the results are a fresh slice (line 148). -/
theorem replaceOrAppendEnvValues_eq_envReference (D O : List String) :
    replaceOrAppendEnvValues D O = envReference D O := by
  rw [replaceOrAppendEnvValues, envResults_foldl, removeUnset_eq_filter, List.take_zero,
    List.drop_zero, List.nil_append, envResults, envReference, List.filter_append,
    List.filter_append, ← filter_map_getD]
  congr 2
  exact List.ext_getElem (by simp) fun j _ _ => by simp

/-! ### `WithImageConfigArgs` -/

/-- `specs.User`, with the fields the code writes. -/
structure SpecUser where
  uid : Nat
  username : String
  deriving DecidableEq, Repr, Inhabited

/-- `specs.Process`, with the fields `WithImageConfigArgs` writes; a nil `Args` slice is the
empty list. -/
structure SpecProcess where
  env : List String
  args : List String
  commandLine : String
  cwd : String
  user : SpecUser
  deriving DecidableEq, Repr, Inhabited

/-- `oci.Spec`, with its process and whether its Linux and Windows sections are set. -/
structure OciSpec where
  process : Option SpecProcess
  linux : Bool
  windows : Bool
  deriving DecidableEq, Repr

/-- `ocispec.ImageConfig`, with the fields `WithImageConfigArgs` reads. -/
structure ImageConfig where
  user : String
  env : List String
  entrypoint : List String
  cmd : List String
  workingDir : String
  argsEscaped : Bool
  deriving DecidableEq, Repr

/-- `escapeAndCombineArgs` (lines 184–186): it panics, here `none`. -/
def escapeAndCombineArgs (_args : List String) : Option String := none

/-- The command a container runs: the image's entrypoint, then the arguments given, or the
image's `Cmd` when none are (lines 54–58 and 103–110). -/
def imageCommand (config : ImageConfig) (args : List String) : List String :=
  config.entrypoint ++ if args.length > 0 then args else config.cmd

/-- The function `WithImageConfigArgs(image, args)` returns (lines 40–135), once
`image.ConfigWithAttributes` has answered `config`, on the spec `s`; `setProcess` gives the
process `p`.  `withUser u` and `withAdditionalGIDs g` stand for `oci.WithUser(u)` and
`oci.WithAdditionalGIDs(g)`, which read the container's `/etc/passwd` and `/etc/group`.  `none`
where Go panics. -/
def withImageConfigArgs (withUser withAdditionalGIDs : String → OciSpec → Except Error OciSpec)
    (config : ImageConfig) (args : List String) (s : OciSpec) : Option (Except Error OciSpec) :=
  let p := s.process.getD default
  if s.linux then
    let s := { s with process := some { p with
      env := linuxProcessEnv config.env p.env
      args := imageCommand config args
      cwd := if config.workingDir = "" then "/" else config.workingDir } }
    some <|
      if config.user ≠ "" then do
        let s ← withUser config.user s
        withAdditionalGIDs (toString (s.process.getD default).user.uid) s
      else withAdditionalGIDs "root" s
  else if s.windows then
    let cmd := imageCommand config args
    if cmd.length = 0 then some (.error (.new "no arguments specified"))
    else
      let argsAndLine : Option (List String × String) :=
        if config.argsEscaped && (config.entrypoint.length > 0 || !(args.length > 0)) then
          if cmd.length > 1 then
            (escapeAndCombineArgs (cmd.drop 1)).map fun rest => ([], cmd.headD "" ++ " " ++ rest)
          else some ([], cmd.headD "")
        else some (cmd, "")
      argsAndLine.map fun (argv, line) => .ok { s with process := some { p with
        env := replaceOrAppendEnvValues config.env p.env
        args := argv
        commandLine := line
        cwd := config.workingDir
        user := ⟨0, config.user⟩ } }
  else some (.error (.new "spec does not contain Linux or Windows section"))

/-- `WithImageConfig` (lines 34–36): no arguments, so the image's `Cmd`. -/
def withImageConfig (withUser withAdditionalGIDs : String → OciSpec → Except Error OciSpec)
    (config : ImageConfig) (s : OciSpec) : Option (Except Error OciSpec) :=
  withImageConfigArgs withUser withAdditionalGIDs config [] s

/-- **Where `WithImageConfigArgs` panics**: exactly on a spec with a Windows section and no Linux
one, an image whose arguments are escaped (`ArgsEscaped`) and either has an entrypoint or is not
given arguments, and a command of more than one word, since `escapeAndCombineArgs` is not
implemented. -/
theorem withImageConfigArgs_eq_none_iff
    {withUser withAdditionalGIDs : String → OciSpec → Except Error OciSpec} {config : ImageConfig}
    {args : List String} {s : OciSpec} :
    withImageConfigArgs withUser withAdditionalGIDs config args s = none ↔
      s.linux = false ∧ s.windows = true ∧ config.argsEscaped = true ∧
        (config.entrypoint ≠ [] ∨ args = []) ∧ 1 < (imageCommand config args).length := by
  unfold withImageConfigArgs
  cases s.linux <;> cases s.windows <;> simp
  split_ifs <;> simp_all [escapeAndCombineArgs, List.length_pos]

section Process

variable {withUser withAdditionalGIDs : String → OciSpec → Except Error OciSpec}
  {config : ImageConfig} {args : List String} {s s' : OciSpec}

theorem except_bind_eq_ok {ε α β : Type} {x : Except ε α} {f : α → Except ε β} {b : β}
    (h : (x >>= f) = .ok b) : ∃ a, x = .ok a ∧ f a = .ok b := by
  cases x with
  | error e => cases h
  | ok a => exact ⟨a, rfl, h⟩

/-- A party that sets the user of the spec's process and nothing else. -/
def SetsUserOnly (f : String → OciSpec → Except Error OciSpec) : Prop :=
  ∀ u s s', f u s = .ok s' → ∃ user, s' = { s with process := s.process.map fun p => { p with user } }

/-- **The process of a Linux container**: it runs the image's entrypoint and then the arguments
given, or the image's `Cmd` when none are given; in the image's working directory, or `/`; with
the image's environment, or the default `PATH`, merged with the spec's; whatever user the user
lookups set. -/
theorem withImageConfigArgs_linux (hu : SetsUserOnly withUser)
    (hg : SetsUserOnly withAdditionalGIDs) (hl : s.linux = true)
    (h : withImageConfigArgs withUser withAdditionalGIDs config args s = some (.ok s')) :
    ∃ user, s' = { s with process := some { (s.process.getD default) with
      env := linuxProcessEnv config.env (s.process.getD default).env
      args := imageCommand config args
      cwd := if config.workingDir = "" then "/" else config.workingDir
      user } } := by
  simp only [withImageConfigArgs, hl, if_true, Option.some.injEq] at h
  by_cases hne : config.user ≠ ""
  · rw [if_pos hne] at h
    obtain ⟨s₁, h₁, h₂⟩ := except_bind_eq_ok h
    obtain ⟨u₁, rfl⟩ := hu _ _ _ h₁
    obtain ⟨u₂, rfl⟩ := hg _ _ _ h₂
    exact ⟨u₂, by simp [hl]⟩
  · rw [if_neg hne] at h
    obtain ⟨u, rfl⟩ := hg _ _ _ h
    exact ⟨u, by simp [hl]⟩

/-- **A Windows container's spec fails only for want of a command**: with no Linux section, the
only error is "no arguments specified", exactly when the image has no entrypoint and no
arguments are given or in its `Cmd`. -/
theorem withImageConfigArgs_windows_error (hl : s.linux = false) (hw : s.windows = true)
    {e : Error} :
    withImageConfigArgs withUser withAdditionalGIDs config args s = some (.error e) ↔
      imageCommand config args = [] ∧ e = .new "no arguments specified" := by
  simp only [withImageConfigArgs, hl, hw, Bool.false_eq_true, ↓reduceIte]
  split_ifs with h0
  · simp [List.length_eq_zero.1 h0, eq_comm]
  all_goals simp [escapeAndCombineArgs, ← List.length_eq_zero, h0]

end Process

end AttributesClient
