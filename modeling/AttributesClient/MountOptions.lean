import AttributesClient.Applier
import AttributesClient.Command

/-!
# The mount options `apply` reads

`apply` writes a layer straight into the upper directory of a single overlay or aufs mount, and
reads that directory from the mount's options.  `getOverlayPath` keeps the value of the last
`upperdir=` option and the `:`-separated list of the last `lowerdir=` option; `getAufsPath`
reads the branches of the `br:` options, which its comment gives as
`br:<upper>=rw[:<lower>=ro+wh]*`.

Both parsers read back what is written in their format, whatever other options stand around
it: only the options with the parser's prefixes matter (`foldl_lastWrite`,
`foldlM_filter_of_skip`), and the separator `:` splits the joined directories back apart.

Results:

* `apply_overlay_pushes_into_upperdir`: **an overlay mount's directories are read back** from
  one `upperdir=` and one `lowerdir=` option, in either order, and outside a user namespace
  `apply` pushes the layer into that upper directory;
* `apply_aufs_pushes_into_rw_branch`: **an aufs mount's branches are read back** from one `br:`
  option in the documented format, and `apply` pushes the layer into its rw branch.

What this does not say: the converse.  `getAufsPath` also takes options outside its format
(`apply_aufs_second_rw_branch`), and neither parser checks that a directory is not empty or
holds no `:`; those are hypotheses here.
-/

namespace AttributesClient

/-! ### Loops that only some options move -/

/-- A loop whose turn on `a` sets a field to `g a` when `p a` holds and leaves it alone otherwise
ends with the field set by the last element in `p`. -/
theorem foldl_lastWrite {α β γ : Type} {f : β → α → β} (π : β → γ) (p : α → Bool) (g : α → γ)
    (hset : ∀ b a, p a = true → π (f b a) = g a) (hkeep : ∀ b a, p a = false → π (f b a) = π b)
    (l : List α) (b : β) : π (l.foldl f b) = ((l.filter p).map g).getLastD (π b) := by
  induction l generalizing b with
  | nil => rfl
  | cons a l ih =>
    cases h : p a
    · rw [List.foldl_cons, ih, hkeep b a h, List.filter_cons_of_neg (by simp [h])]
    · rw [List.foldl_cons, ih, hset b a h, List.filter_cons_of_pos h, List.map_cons,
        List.getLastD_cons]

/-- A monadic loop whose turns on the elements outside `p` return their accumulator runs as on
the elements in `p` alone. -/
theorem foldlM_filter_of_skip {m : Type → Type} [Monad m] [LawfulMonad m] {α β : Type}
    {f : β → α → m β} (p : α → Bool) (hf : ∀ a, p a = false → ∀ b, f b a = pure b)
    (l : List α) (b : β) : l.foldlM f b = (l.filter p).foldlM f b := by
  induction l generalizing b with
  | nil => rfl
  | cons a l ih => cases h : p a <;> simp [List.filter_cons, h, hf, ih]

theorem ok_bind {ε α β : Type} (a : α) (f : α → Except ε β) : (Except.ok a >>= f) = f a := rfl

/-! ### The formats -/

/-- `strings.Join(l, ":")`. -/
def joinColon (l : List String) : String := ⟨[':'].intercalate (l.map String.data)⟩

/-- A `br:` option in the format the comment of `getAufsPath` gives:
`br:<upper>=rw[:<lower>=ro+wh]*`. -/
def aufsOption (upper : String) (lower : List String) : String :=
  "br:" ++ joinColon ((upper ++ "=rw") :: lower.map (· ++ "=ro+wh"))

theorem split_joinColon {l : List String} (h : ∀ s ∈ l, ':' ∉ s.data) (hl : l ≠ []) :
    split (joinColon l) ':' = l :=
  split_intercalate h hl

/-- No option is both an `upperdir=` and a `lowerdir=` option. -/
theorem hasPrefix_lowerdir_upperdir {o : String} (h : hasPrefix o "lowerdir=" = true) :
    hasPrefix o "upperdir=" = false := by
  simp only [hasPrefix, Bool.eq_false_iff, ne_eq, List.isPrefixOf_iff_prefix,
    List.prefix_iff_eq_take] at h ⊢
  exact fun h' => absurd (h.trans h'.symm) (by decide)

/-- No `=ro+wh` branch is an `=rw` branch. -/
theorem hasSuffix_roSuffix_rw (l : String) : hasSuffix (l ++ "=ro+wh") "=rw" = false := by
  simp only [hasSuffix, String.data_append, Bool.eq_false_iff, ne_eq, List.isSuffixOf_iff_suffix,
    ← List.reverse_prefix, List.reverse_append]
  exact fun h => absurd (List.cons_prefix_cons.1 h).1 (by decide)

/-! ### The overlay options -/

/-- `getOverlayPath` reads back one `upperdir=` option and one `lowerdir=` option, in either
order, among options of other kinds. -/
theorem getOverlayPath_of_filter {options : List String} {upper : String} {lower : List String}
    (hu : upper ≠ "") (hl : lower ≠ []) (hc : ∀ d ∈ lower, ':' ∉ d.data)
    (hup : options.filter (hasPrefix · "upperdir=") = ["upperdir=" ++ upper])
    (hlow : options.filter (hasPrefix · "lowerdir=") = ["lowerdir=" ++ joinColon lower]) :
    getOverlayPath options = .ok (upper, lower) := by
  unfold getOverlayPath
  split
  rename_i heq
  have hfst := congrArg Prod.fst heq
  have hsnd := congrArg Prod.snd heq
  rw [foldl_lastWrite Prod.fst (hasPrefix · "upperdir=") (trimPrefix · "upperdir=") ?_ ?_, hup]
    at hfst
  rw [foldl_lastWrite Prod.snd (hasPrefix · "lowerdir=")
    (fun o => split (trimPrefix o "lowerdir=") ':') ?_ ?_, hlow] at hsnd
  · simp only [List.map_cons, List.map_nil, List.getLastD_cons, List.getLastD_nil,
      trimPrefix_append, split_joinColon hc hl] at hfst hsnd
    subst hfst hsnd
    simp [hu]
  all_goals
    rintro ⟨u, l⟩ o h
    dsimp only at h ⊢
    split_ifs <;> simp_all [hasPrefix_lowerdir_upperdir]

/-- **An overlay mount's directories are read back.**  Whatever other options it has, an overlay
mount whose options name its upper directory in one `upperdir=` option and its lower
directories, joined by `:`, in one `lowerdir=` option, in either order, is parsed back to those
directories; and outside a user namespace `apply` pushes the layer into that upper directory,
and does nothing else. -/
theorem apply_overlay_pushes_into_upperdir {options : List String} {upper : String}
    {lower : List String} (hu : upper ≠ "") (hl : lower ≠ []) (hc : ∀ d ∈ lower, ':' ∉ d.data)
    (hup : options.filter (hasPrefix · "upperdir=") = ["upperdir=" ++ upper])
    (hlow : options.filter (hasPrefix · "lowerdir=") = ["lowerdir=" ++ joinColon lower])
    (source : String) (desc : Descriptor) (r : Stream) :
    getOverlayPath options = .ok (upper, lower) ∧
      apply [⟨"overlay", source, options⟩] desc r = .call .runningInUserNS fun (userns : Bool) =>
        if userns then withTempMount [⟨"overlay", source, options⟩] desc r
        else .call (.push upper desc r) .pure := by
  have h := getOverlayPath_of_filter hu hl hc hup hlow
  exact ⟨h, by simp [apply, h, applyDirect]⟩

theorem apply_overlay_pushes_into_upperdir_containerd :
    getOverlayPath ["index=off", "lowerdir=/l1:/l2", "upperdir=/u", "workdir=/w"] =
        .ok ("/u", ["/l1", "/l2"]) ∧
      apply [⟨"overlay", "overlay",
          ["index=off", "lowerdir=/l1:/l2", "upperdir=/u", "workdir=/w"]⟩] ⟨"t", "sha256:a", 1⟩ [] =
        .call .runningInUserNS fun (userns : Bool) =>
          if userns then withTempMount [⟨"overlay", "overlay",
            ["index=off", "lowerdir=/l1:/l2", "upperdir=/u", "workdir=/w"]⟩] ⟨"t", "sha256:a", 1⟩ []
          else .call (.push "/u" ⟨"t", "sha256:a", 1⟩ []) .pure :=
  apply_overlay_pushes_into_upperdir (by decide) (by decide) (by decide) (by decide) (by decide)
    "overlay" ⟨"t", "sha256:a", 1⟩ []

/-! ### The aufs options -/

/-- After the rw branch, every `=ro+wh` branch is appended to the lower directories. -/
theorem foldlM_aufsBranch_ro {upper : String} (hu : upper ≠ "") (lower acc : List String) :
    (lower.map (· ++ "=ro+wh")).foldlM aufsBranch (upper, acc) = .ok (upper, acc ++ lower) := by
  induction lower generalizing acc with
  | nil => simp; rfl
  | cons d lower ih =>
    simp [aufsBranch, hasSuffix_roSuffix_rw, hasSuffix_append, trimSuffix_append, hu, ih, ok_bind]

/-- The branches of an option in the documented format are read in order: the first as the
upper directory, the others as the lower directories. -/
theorem foldlM_aufsBranch_format {upper : String} (hu : upper ≠ "") (lower : List String) :
    ((upper ++ "=rw") :: lower.map (· ++ "=ro+wh")).foldlM aufsBranch ("", []) =
      .ok (upper, lower) := by
  simp [aufsBranch, hasSuffix_append, trimSuffix_append, foldlM_aufsBranch_ro hu, ok_bind]

/-- `getAufsPath` reads back one `br:` option in the documented format, among options of other
kinds. -/
theorem getAufsPath_of_filter {options : List String} {upper : String} {lower : List String}
    (hu : upper ≠ "") (hc : ':' ∉ upper.data) (hl : ∀ d ∈ lower, ':' ∉ d.data)
    (hbr : options.filter (hasPrefix · "br:") = [aufsOption upper lower]) :
    getAufsPath options = .ok (upper, lower) := by
  have hsplit : split (joinColon ((upper ++ "=rw") :: lower.map (· ++ "=ro+wh"))) ':' =
      (upper ++ "=rw") :: lower.map (· ++ "=ro+wh") := by
    refine split_joinColon (fun s hs => ?_) (List.cons_ne_nil _ _)
    simp only [List.mem_cons, List.mem_map] at hs
    rcases hs with rfl | ⟨d, hd, rfl⟩
    · simp [hc]
    · simp [hl d hd]
  simp only [getAufsPath]
  rw [foldlM_filter_of_skip (hasPrefix · "br:") (fun o h b => by simp [h]; rfl), hbr]
  simp [aufsOption, hasPrefix_append, trimPrefix_append, hsplit, foldlM_aufsBranch_format hu, hu,
    ok_bind]

/-- **An aufs mount's branches are read back.**  Whatever other options it has, an aufs mount
with one `br:` option in the format `br:<upper>=rw[:<lower>=ro+wh]*` is parsed back to its rw
branch and its lower branches, in order; and `apply` pushes the layer into the rw branch, and
does nothing else. -/
theorem apply_aufs_pushes_into_rw_branch {options : List String} {upper : String}
    {lower : List String} (hu : upper ≠ "") (hc : ':' ∉ upper.data)
    (hl : ∀ d ∈ lower, ':' ∉ d.data)
    (hbr : options.filter (hasPrefix · "br:") = [aufsOption upper lower])
    (source : String) (desc : Descriptor) (r : Stream) :
    getAufsPath options = .ok (upper, lower) ∧
      apply [⟨"aufs", source, options⟩] desc r = .call (.push upper desc r) .pure := by
  have h := getAufsPath_of_filter hu hc hl hbr
  exact ⟨h, by simp [apply, h, applyDirect]⟩

theorem apply_aufs_pushes_into_rw_branch_containerd :
    getAufsPath ["br:/u=rw:/l1=ro+wh:/l2=ro+wh", "xino=/dev/shm/aufs.xino"] =
        .ok ("/u", ["/l1", "/l2"]) ∧
      apply [⟨"aufs", "none", ["br:/u=rw:/l1=ro+wh:/l2=ro+wh", "xino=/dev/shm/aufs.xino"]⟩]
          ⟨"t", "sha256:a", 1⟩ [] = .call (.push "/u" ⟨"t", "sha256:a", 1⟩ []) .pure :=
  apply_aufs_pushes_into_rw_branch (by decide) (by decide) (by decide) (by decide) "none"
    ⟨"t", "sha256:a", 1⟩ []

end AttributesClient
