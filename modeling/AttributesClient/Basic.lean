import Mathlib.Data.List.Basic

/-!
# The Go values the client works on

The client (`src/aritfact`, `src/cmd/rcl/commands`) handles strings, `errdefs` errors, digests
and OCI descriptors.  This file gives each the shape the code relies on:

* Go strings with the `strings` functions the code calls, on the characters of the string;
* errors as the code builds them (`errors.New`, `fmt.Errorf` with `%w`) and tests them
  (`errdefs.IsNotFound`, `errdefs.IsAlreadyExists`, `errdefs.IsInvalidArgument`);
* `identity.ChainID`, the Merkle-style fold over layer digests, for a hash `fromBytes`
  standing for `digest.FromBytes`; `chainID_append` is its defining recursion;
* Go slice and index expressions, which panic out of bounds.
-/

namespace AttributesClient

/-! ### Strings -/

/-- `strings.HasPrefix`. -/
def hasPrefix (s pre : String) : Bool := pre.data.isPrefixOf s.data

/-- `strings.TrimPrefix`. -/
def trimPrefix (s pre : String) : String :=
  if hasPrefix s pre then ⟨s.data.drop pre.length⟩ else s

/-- `strings.HasSuffix`. -/
def hasSuffix (s suf : String) : Bool := suf.data.isSuffixOf s.data

/-- `strings.TrimSuffix`. -/
def trimSuffix (s suf : String) : String :=
  if hasSuffix s suf then ⟨s.data.take (s.length - suf.length)⟩ else s

/-- `strings.Split` with a one-character separator: every field, empty ones included. -/
def split (s : String) (sep : Char) : List String := (s.data.splitOn sep).map String.mk

/-- `strings.Cut` with a one-character separator: the text before the first `sep`, the text
after it, and whether there was one. -/
def cut (s : String) (sep : Char) : String × String × Bool :=
  (⟨s.data.takeWhile (· != sep)⟩, ⟨(s.data.dropWhile (· != sep)).drop 1⟩, s.data.contains sep)

/-- `strconv.Quote` (the `%q` verb) on text with nothing to escape. -/
def quote (s : String) : String := "\"" ++ s ++ "\""

theorem hasPrefix_append (pre s : String) : hasPrefix (pre ++ s) pre = true := by
  simp [hasPrefix, List.isPrefixOf_iff_prefix]

theorem trimPrefix_append (pre s : String) : trimPrefix (pre ++ s) pre = s := by
  rw [trimPrefix, if_pos (hasPrefix_append pre s)]
  exact String.ext (List.drop_left' rfl)

theorem hasSuffix_append (s suf : String) : hasSuffix (s ++ suf) suf = true := by
  simp [hasSuffix, List.isSuffixOf_iff_suffix]

theorem trimSuffix_append (s suf : String) : trimSuffix (s ++ suf) suf = s := by
  rw [trimSuffix, if_pos (hasSuffix_append s suf), String.length_append, Nat.add_sub_cancel]
  exact String.ext (List.take_left' rfl)

/-! ### Errors -/

/-- The `errdefs` sentinels the code tests for. -/
inductive ErrKind where
  | notFound
  | alreadyExists
  | invalidArgument
  deriving DecidableEq, Repr

/-- A Go `error`: an `errdefs` sentinel, a plain error (`errors.New`, or `fmt.Errorf` without
`%w`), or `fmt.Errorf("<msg>: %w", inner)`. -/
inductive Error where
  | sentinel (k : ErrKind)
  | new (msg : String)
  | wrap (msg : String) (inner : Error)
  deriving DecidableEq, Repr

namespace Error

/-- `errors.Is(err, errdefs.Err<k>)`: the sentinel anywhere down the `%w` chain. -/
def is (k : ErrKind) : Error → Bool
  | sentinel k' => k' == k
  | new _ => false
  | wrap _ e => e.is k

/-- `err.Error()`. -/
def text : Error → String
  | sentinel .notFound => "not found"
  | sentinel .alreadyExists => "already exists"
  | sentinel .invalidArgument => "invalid argument"
  | new msg => msg
  | wrap msg e => msg ++ ": " ++ e.text

@[simp] theorem is_sentinel (k k' : ErrKind) : (sentinel k').is k = (k' == k) := rfl

@[simp] theorem is_new (k : ErrKind) (msg : String) : (new msg).is k = false := rfl

@[simp] theorem is_wrap (k : ErrKind) (msg : String) (e : Error) : (wrap msg e).is k = e.is k :=
  rfl

end Error

/-- `errdefs.IsNotFound`. -/
def IsNotFound (e : Error) : Bool := e.is .notFound

/-- `errdefs.IsAlreadyExists`. -/
def IsAlreadyExists (e : Error) : Bool := e.is .alreadyExists

/-- `errdefs.IsInvalidArgument`. -/
def IsInvalidArgument (e : Error) : Bool := e.is .invalidArgument

/-! ### Digests and chain IDs -/

/-- `digest.Digest`, an algorithm-qualified content hash such as `sha256:...`. -/
abbrev Digest := String

section ChainID

variable (fromBytes : String → Digest)

/-- `identity.ChainID`: the empty sentinel `""` for no layers, the digest itself for one, and
for more the digest of the parent's chain ID and the next digest joined by a space
(`identity.ChainIDs`). -/
def chainID : List Digest → Digest
  | [] => ""
  | d :: ds => ds.foldl (fun acc d => fromBytes (acc ++ " " ++ d)) d

@[simp] theorem chainID_nil : chainID fromBytes [] = "" := rfl

@[simp] theorem chainID_singleton (d : Digest) : chainID fromBytes [d] = d := rfl

/-- The recursion of the chain ID: a layer on a non-empty chain. -/
theorem chainID_append {ds : List Digest} (h : ds ≠ []) (d : Digest) :
    chainID fromBytes (ds ++ [d]) = fromBytes (chainID fromBytes ds ++ " " ++ d) := by
  obtain ⟨x, xs, rfl⟩ := List.exists_cons_of_ne_nil h
  simp [chainID, List.foldl_append]

/-- A hash that never gives the empty text keeps the chain ID of layers with digests away from
the empty sentinel. -/
theorem chainID_ne_empty (hH : ∀ s, fromBytes s ≠ "") {ds : List Digest} (h : ds ≠ [])
    (hd : ∀ d ∈ ds, d ≠ "") : chainID fromBytes ds ≠ "" := by
  obtain ⟨d, ds, rfl⟩ := List.exists_cons_of_ne_nil h
  have key : ∀ (ds : List Digest) (acc : Digest), acc ≠ "" →
      ds.foldl (fun acc d => fromBytes (acc ++ " " ++ d)) acc ≠ "" := by
    intro ds
    induction ds with
    | nil => exact fun _ h => h
    | cons x xs ih => exact fun _ _ => ih _ (hH _)
  exact key ds d (hd d (List.mem_cons_self _ _))

end ChainID

/-! ### Descriptors, artifacts and mounts -/

/-- `ocispec.Descriptor`, with the fields the code reads and writes. -/
structure Descriptor where
  mediaType : String
  digest : Digest
  size : Int
  deriving DecidableEq, Repr

/-- `aritfact.Artifact`: one layer blob. -/
structure Artifact where
  blob : Descriptor
  deriving DecidableEq, Repr

/-- `mount.Mount`. -/
structure Mount where
  type : String
  source : String
  options : List String
  deriving DecidableEq, Repr

/-! ### Slices -/

/-- The slice expression `s[:hi]`: Go panics unless `0 ≤ hi ≤ len(s)`. -/
def sliceTo {α : Type} (s : List α) (hi : Int) : Option (List α) :=
  if 0 ≤ hi ∧ hi ≤ s.length then some (s.take hi.toNat) else none

/-- The index expression `s[i]`: Go panics unless `0 ≤ i < len(s)`. -/
def index {α : Type} (s : List α) (i : Int) : Option α :=
  if 0 ≤ i then s[i.toNat]? else none

theorem sliceTo_pred {α : Type} {s : List α} (h : s ≠ []) :
    sliceTo s (s.length - 1) = some s.dropLast := by
  have : 0 < s.length := List.length_pos.2 h
  simp only [sliceTo, List.dropLast_eq_take]
  rw [if_pos (by omega)]
  congr 2
  omega

theorem sliceTo_pred_nil {α : Type} : sliceTo ([] : List α) ((0 : Nat) - 1) = none := rfl

theorem index_pred {α : Type} {s : List α} (h : s ≠ []) :
    index s (s.length - 1) = some (s.getLast h) := by
  have : 0 < s.length := List.length_pos.2 h
  simp only [index, List.getLast_eq_getElem]
  rw [if_pos (by omega)]
  have e : (((s.length : Int) - 1).toNat) = s.length - 1 := by omega
  rw [e, List.getElem?_eq_getElem]

/-! ### Association lists -/

/-- Dropping the entries of one key leaves what every other key finds. -/
theorem lookup_filter_ne {l : List (String × String)} {key k : String} (hk : k ≠ key) :
    (l.filter (·.1 != key)).lookup k = l.lookup k := by
  induction l with
  | nil => rfl
  | cons v l ih =>
    obtain ⟨k', p⟩ := v
    by_cases h : k' = key
    · subst h
      simp [List.filter_cons, List.lookup_cons, ih, beq_false_of_ne hk]
    · simp [List.filter_cons, h, List.lookup_cons, ih]

end AttributesClient
