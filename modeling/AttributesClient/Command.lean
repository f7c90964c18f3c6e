import Mathlib.Data.List.Basic
import AttributesClient.Basic

/-!
# The mounts, labels and arguments of `rcl run`

`src/cmd/rcl/commands/root.go` turns the strings of `RunOptions.Mounts` into runtime-spec mounts
(`parseMountFlag`, `withMounts`), merges the command line's labels over the image's
(`buildLabels`), and takes the image reference, the container ID and the container's arguments
from the positional arguments (`RunOptions.Complete`).

`parseMountFlag` reads the flag as one CSV record with Go's `encoding/csv`, then each field as
`key=val`, the `switch` of lines 279–289 setting the field of the mount that `key` names
(`assign`).  The CSV reader is Go's own, not the repository's: here it is a parameter `csvRead`,
and the round trip assumes of it only what it does on one line with no quote and no line break
(`CsvSplitsPlain`): it returns the text between the commas.

Results:

* `parseFields_ok_iff`: the loop accepts exactly the records whose fields are all `key=val` with
  a key the `switch` knows (`GoodField`);
* `parseFields_error`: a rejected record fails at its first bad field, with the error that says
  why: no `=`, or the key, quoted, that is not supported;
* `parseFields_eq_specMount`: what an accepted record means: each field of the mount takes the
  value of the last field that names it, under either of its names (`specMount`);
* `parseMountFlag_formatMount`: **round trip**: a mount written as a flag (`formatMount`) parses
  back to itself, when its texts hold no comma, quote or line break and its options no colon;
* `withMounts_ok_iff`, `withMounts_error`, `withMounts_formatMount`: the flags of a run all parse,
  in order, or the first error is returned; mounts written as flags come back;
* `buildLabels_lookup`: a label of the container is the command line's, or else the image's if
  `clabels.Validate` accepts it, in whatever order the maps are visited;
* `complete_eq_none_iff`: `Complete` panics exactly on fewer than two arguments, which
  `cobra.MinimumNArgs(2)` turns away before it runs.

What this does not say: `oci.WithMounts`, the CSV reader on quoted or multi-line input, and the
warning logged for an image label that `clabels.Validate` rejects are outside the model.
-/

namespace AttributesClient

/-! ### Mount flags, as the code parses them -/

/-- `specs.Mount` of the runtime spec, with the fields `parseMountFlag` sets; the default is
`specs.Mount{}`, its nil `Options` slice the empty list. -/
structure SpecMount where
  destination : String
  type : String
  source : String
  options : List String
  deriving DecidableEq, Repr, Inhabited

/-- The `switch key` of lines 279–289: the mount with the field that `key` names set to `val`, or
`none` for a key it does not support. -/
def assign (mount : SpecMount) (val : String) : String → Option SpecMount
  | "type" => some { mount with type := val }
  | "source" | "src" => some { mount with source := val }
  | "destination" | "dst" => some { mount with destination := val }
  | "options" => some { mount with options := split val ':' }
  | _ => none

/-- The loop of lines 272–291 over the record's fields, from the mount built so far.  On an error
the Go function returns the mount built so far beside it. -/
def parseFields : SpecMount → List String → SpecMount × Option Error
  | mount, [] => (mount, none)
  | mount, field :: fields =>
    let (key, val, ok) := cut field '='
    if !ok then (mount, some (.new "invalid mount specification: expected key=val"))
    else
      match assign mount val key with
      | some mount => parseFields mount fields
      | none => (mount, some (.new ("mount option " ++ quote key ++ " not supported")))

/-- `parseMountFlag` (lines 264–294): the flag read as one CSV record by `csvRead` (Go's
`csv.NewReader(strings.NewReader(m)).Read()`), then its fields. -/
def parseMountFlag (csvRead : String → Except Error (List String)) (m : String) :
    SpecMount × Option Error :=
  match csvRead m with
  | .error err => (default, some err)
  | .ok fields => parseFields default fields

/-- The loop of `withMounts` (lines 249–262): each flag of `options.Mounts` parsed in turn and
appended to `mounts`, up to the first error, which is returned; the mounts then go to
`oci.WithMounts`. -/
def withMounts (csvRead : String → Except Error (List String)) :
    List SpecMount → List String → Except Error (List SpecMount)
  | mounts, [] => .ok mounts
  | mounts, flag :: flags =>
    match parseMountFlag csvRead flag with
    | (_, some err) => .error err
    | (m, none) => withMounts csvRead (mounts ++ [m]) flags

/-! ### What the parser accepts -/

/-- The keys the `switch` supports. -/
def mountKeys : List String := ["type", "source", "src", "destination", "dst", "options"]

/-- A field the loop accepts: `key=val` with a supported key. -/
def GoodField (field : String) : Prop :=
  (cut field '=').2.2 = true ∧ (cut field '=').1 ∈ mountKeys

instance : DecidablePred GoodField := fun _ => instDecidableAnd

section Fields

variable {mount m' : SpecMount} {field key val : String} {fields : List String}

@[simp] theorem assign_type : assign mount val "type" = some { mount with type := val } := rfl

@[simp] theorem assign_source : assign mount val "source" = some { mount with source := val } := rfl

@[simp] theorem assign_destination :
    assign mount val "destination" = some { mount with destination := val } := rfl

@[simp] theorem assign_options :
    assign mount val "options" = some { mount with options := split val ':' } := rfl

theorem assign_eq_none_iff : assign mount val key = none ↔ key ∉ mountKeys := by
  unfold assign
  split <;> simp_all [mountKeys]

theorem parseFields_noEq (hc : cut field '=' = (key, val, false)) :
    parseFields mount (field :: fields) =
      (mount, some (.new "invalid mount specification: expected key=val")) := by
  simp [parseFields, hc]

theorem parseFields_unsupported (hc : cut field '=' = (key, val, true))
    (ha : assign mount val key = none) :
    parseFields mount (field :: fields) =
      (mount, some (.new ("mount option " ++ quote key ++ " not supported"))) := by
  simp [parseFields, hc, ha]

theorem parseFields_good (hc : cut field '=' = (key, val, true))
    (ha : assign mount val key = some m') :
    parseFields mount (field :: fields) = parseFields m' fields := by
  simp [parseFields, hc, ha]

theorem goodField_of_assign (hc : cut field '=' = (key, val, true))
    (ha : assign mount val key = some m') : GoodField field := by
  refine ⟨by simp [hc], ?_⟩
  rw [hc]
  by_contra hk
  rw [assign_eq_none_iff.2 hk] at ha
  cases ha

/-- **The loop accepts exactly the records of supported `key=val` fields.** -/
theorem parseFields_ok_iff : (parseFields mount fields).2 = none ↔ ∀ f ∈ fields, GoodField f := by
  induction fields generalizing mount with
  | nil => simp [parseFields]
  | cons f fields ih =>
    rcases hc : cut f '=' with ⟨key, val, _ | _⟩
    · simp [parseFields_noEq hc, GoodField, hc]
    rcases ha : assign mount val key with _ | m'
    · simp [parseFields_unsupported hc ha, GoodField, hc, assign_eq_none_iff.1 ha]
    · simp [parseFields_good hc ha, ih, goodField_of_assign hc ha]

end Fields

/-- A flag parses exactly when the CSV reader reads it and every field is supported. -/
theorem parseMountFlag_ok_iff {csvRead : String → Except Error (List String)} {m : String} :
    (parseMountFlag csvRead m).2 = none ↔
      ∃ fields, csvRead m = .ok fields ∧ ∀ f ∈ fields, GoodField f := by
  unfold parseMountFlag
  split <;> simp_all [parseFields_ok_iff]

/-! ### What an accepted record means -/

/-- The value of the last field of `fields` whose key is one of `keys`. -/
def lastValue (keys fields : List String) : Option String :=
  ((fields.filter fun f => (cut f '=').1 ∈ keys).getLast?).map fun f => (cut f '=').2.1

/-- **What an accepted record means**: each field of the mount takes the value of the last field
that names it, under either of its names, and keeps its value in `mount` where none does. -/
def specMount (mount : SpecMount) (fields : List String) : SpecMount where
  destination := (lastValue ["destination", "dst"] fields).getD mount.destination
  type := (lastValue ["type"] fields).getD mount.type
  source := (lastValue ["source", "src"] fields).getD mount.source
  options := ((lastValue ["options"] fields).map (split · ':')).getD mount.options

theorem getD_or {α : Type} (a b : Option α) (d : α) : (a.or b).getD d = a.getD (b.getD d) := by
  cases a <;> rfl

theorem map_or {α β : Type} (g : α → β) (a b : Option α) : (a.or b).map g = (a.map g).or (b.map g) := by
  cases a <;> rfl

theorem lastValue_cons (keys : List String) (f : String) (fields : List String) :
    lastValue keys (f :: fields) =
      (lastValue keys fields).or (if (cut f '=').1 ∈ keys then some (cut f '=').2.1 else none) := by
  unfold lastValue
  by_cases h : (cut f '=').1 ∈ keys
  · rw [List.filter_cons_of_pos (by simpa using h), List.getLast?_cons, if_pos h]
    cases (fields.filter fun f => (cut f '=').1 ∈ keys).getLast? <;> rfl
  · rw [List.filter_cons_of_neg (by simpa using h), if_neg h, Option.or_none]

/-- **The loop computes the meaning of an accepted record**: the parsed mount is `specMount`. -/
theorem parseFields_eq_specMount {mount : SpecMount} {fields : List String}
    (h : ∀ f ∈ fields, GoodField f) : (parseFields mount fields).1 = specMount mount fields := by
  induction fields generalizing mount with
  | nil => simp [parseFields, specMount, lastValue]
  | cons f fields ih =>
    obtain ⟨hok, hk⟩ := h f (.head _)
    rcases hc : cut f '=' with ⟨key, val, ok⟩
    rw [hc] at hok hk
    subst hok
    rcases ha : assign mount val key with _ | m'
    · exact absurd hk (assign_eq_none_iff.1 ha)
    rw [parseFields_good hc ha, ih fun g hg => h g (.tail _ hg)]
    simp only [mountKeys, List.mem_cons, List.mem_singleton, List.not_mem_nil, or_false] at hk
    rcases hk with rfl | rfl | rfl | rfl | rfl | rfl <;> cases ha <;>
      simp [specMount, lastValue_cons, hc, getD_or, map_or]

theorem parseFields_eq_specMount_alias :
    (∀ f ∈ ["src=/a", "type=bind", "source=/b"], GoodField f) ∧
      (parseFields default ["src=/a", "type=bind", "source=/b"]).1 =
        specMount default ["src=/a", "type=bind", "source=/b"] :=
  have h : ∀ f ∈ ["src=/a", "type=bind", "source=/b"], GoodField f := by decide
  ⟨h, parseFields_eq_specMount h⟩

/-! ### Writing a mount as a flag -/

/-- A field of a flag: `key=val`. -/
def flagField (key val : String) : String := key ++ "=" ++ val

/-- The fields of a mount written as a flag: type, source and destination, then the options
joined by `:` where there are any. -/
def mountFields (m : SpecMount) : List String :=
  [flagField "type" m.type, flagField "source" m.source, flagField "destination" m.destination] ++
    if m.options = [] then [] else
      [flagField "options" ⟨[':'].intercalate (m.options.map String.data)⟩]

/-- A mount written as a flag: its fields joined by `,`. -/
def formatMount (m : SpecMount) : String := ⟨[','].intercalate ((mountFields m).map String.data)⟩

/-- Text the CSV reader takes as it is: no quote and no line break. -/
def CsvPlain (s : String) : Prop := ∀ c ∈ s.data, c ≠ '"' ∧ c ≠ '\n' ∧ c ≠ '\r'

/-- What Go's `csv.Reader.Read` does on one non-empty line with no quote and no line break: it
returns the text between the commas. -/
def CsvSplitsPlain (csvRead : String → Except Error (List String)) : Prop :=
  ∀ s, s ≠ "" → CsvPlain s → csvRead s = .ok (split s ',')

/-- A character that stays inside one CSV field: no quote, line break or comma. -/
def FieldChar (c : Char) : Prop := c ≠ '"' ∧ c ≠ '\n' ∧ c ≠ '\r' ∧ c ≠ ','

instance : DecidablePred FieldChar := fun _ => instDecidableAnd

/-- A mount that can be written as a flag: its texts stay inside one CSV field, and its options
hold no colon. -/
structure PlainMount (m : SpecMount) : Prop where
  chars : ∀ t ∈ [m.type, m.source, m.destination] ++ m.options, ∀ c ∈ t.data, FieldChar c
  colon : ∀ o ∈ m.options, ':' ∉ o.data

theorem mem_intercalate {c x : Char} {ls : List (List Char)} (h : c ∈ [x].intercalate ls) :
    c = x ∨ ∃ l ∈ ls, c ∈ l := by
  induction ls with
  | nil => simp [List.intercalate] at h
  | cons l ls ih =>
    cases ls with
    | nil => exact .inr ⟨l, .head _, by simpa [List.intercalate] using h⟩
    | cons l' ls =>
      simp only [List.intercalate, List.intersperse_cons_cons, List.flatten_cons,
        List.mem_append] at h ih
      rcases h with h | h | h
      · exact .inr ⟨l, .head _, h⟩
      · exact .inl (by simpa using h)
      · exact (ih h).imp_right fun ⟨l'', hl, hc⟩ => ⟨l'', .tail _ hl, hc⟩

/-- Splitting text joined at `c` gives the parts back, when none holds `c`. -/
theorem split_intercalate {c : Char} {l : List String} (h : ∀ s ∈ l, c ∉ s.data) (hl : l ≠ []) :
    split ⟨[c].intercalate (l.map String.data)⟩ c = l := by
  rw [split, List.splitOn_intercalate _ _ (by simpa using h) (by simpa using hl), List.map_map]
  exact List.map_id _

theorem cut_flagField {key val : String} (h : '=' ∉ key.data) :
    cut (flagField key val) '=' = (key, val, true) := by
  have hk : ∀ a ∈ key.data, (a != '=') = true := fun a ha => bne_iff_ne.2 fun e => h (e ▸ ha)
  simp only [cut, flagField, String.data_append, List.append_assoc,
    List.takeWhile_append_of_pos hk, List.dropWhile_append_of_pos hk]
  simp [show "=".data = ['='] from rfl]

theorem flagField_chars {key val : String} (hk : ∀ c ∈ key.data, FieldChar c)
    (hv : ∀ c ∈ val.data, FieldChar c) : ∀ c ∈ (flagField key val).data, FieldChar c := by
  intro c hc
  simp only [flagField, String.data_append, List.mem_append] at hc
  rcases hc with (hc | hc) | hc
  · exact hk c hc
  · obtain rfl : c = '=' := by simpa [show "=".data = ['='] from rfl] using hc
    decide
  · exact hv c hc

section Format

variable {m : SpecMount}

/-- The characters of a written mount's fields stay inside one CSV field. -/
theorem mountFields_chars (hm : PlainMount m) : ∀ f ∈ mountFields m, ∀ c ∈ f.data, FieldChar c := by
  have hopts : ∀ c ∈ [':'].intercalate (m.options.map String.data), FieldChar c := fun c hc => by
    rcases mem_intercalate hc with rfl | ⟨l, hl, hcl⟩
    · decide
    · obtain ⟨o, ho, rfl⟩ := List.mem_map.1 hl
      exact hm.chars o (by simp [ho]) c hcl
  intro f hf
  unfold mountFields at hf
  split_ifs at hf
  · simp only [List.append_nil, List.mem_cons, List.mem_singleton, List.not_mem_nil,
      or_false] at hf
    rcases hf with rfl | rfl | rfl <;> exact flagField_chars (by decide) (hm.chars _ (by simp))
  · simp only [List.mem_append, List.mem_cons, List.mem_singleton, List.not_mem_nil,
      or_false] at hf
    rcases hf with (rfl | rfl | rfl) | rfl
    iterate 3 exact flagField_chars (by decide) (hm.chars _ (by simp))
    exact flagField_chars (by decide) hopts

theorem split_formatMount (hm : PlainMount m) : split (formatMount m) ',' = mountFields m :=
  split_intercalate (fun f hf hc => (mountFields_chars hm f hf ',' hc).2.2.2 rfl)
    (by simp [mountFields])

theorem formatMount_csvPlain (hm : PlainMount m) : CsvPlain (formatMount m) := fun c hc => by
  rcases mem_intercalate hc with rfl | ⟨l, hl, hcl⟩
  · decide
  · obtain ⟨f, hf, rfl⟩ := List.mem_map.1 hl
    obtain ⟨h₁, h₂, h₃, -⟩ := mountFields_chars hm f hf c hcl
    exact ⟨h₁, h₂, h₃⟩

theorem formatMount_ne_empty : formatMount m ≠ "" := fun h => by
  have := congrArg String.data h
  simp [formatMount, mountFields, flagField, List.intercalate] at this

/-- The loop reads a written mount's fields back into the mount. -/
theorem parseFields_mountFields (hm : ∀ o ∈ m.options, ':' ∉ o.data) :
    parseFields default (mountFields m) = (m, none) := by
  simp only [mountFields, List.cons_append, List.nil_append]
  rw [parseFields_good (cut_flagField (by decide)) assign_type,
    parseFields_good (cut_flagField (by decide)) assign_source,
    parseFields_good (cut_flagField (by decide)) assign_destination]
  split_ifs with ho
  · cases m
    cases ho
    rfl
  · rw [parseFields_good (cut_flagField (by decide)) assign_options, split_intercalate hm ho]
    rfl

/-- **Round trip**: a mount written as a flag parses back to itself. -/
theorem parseMountFlag_formatMount {csvRead : String → Except Error (List String)}
    (hcsv : CsvSplitsPlain csvRead) (hm : PlainMount m) :
    parseMountFlag csvRead (formatMount m) = (m, none) := by
  rw [parseMountFlag, hcsv _ formatMount_ne_empty (formatMount_csvPlain hm), split_formatMount hm]
  exact parseFields_mountFields hm.colon

end Format

example : parseMountFlag (fun s => .ok (split s ','))
    "type=bind,source=/src,destination=/mnt,options=rbind:ro" =
      (⟨"/mnt", "bind", "/src", ["rbind", "ro"]⟩, none) := by decide

/-! ### The mounts of a run -/

section Mounts

variable {csvRead : String → Except Error (List String)}

/-- **`withMounts` succeeds exactly when every flag parses**, and then returns the parsed
mounts in the order of the flags. -/
theorem withMounts_ok_iff {mounts ms : List SpecMount} {flags : List String} :
    withMounts csvRead mounts flags = .ok ms ↔
      (∀ f ∈ flags, (parseMountFlag csvRead f).2 = none) ∧
        ms = mounts ++ flags.map fun f => (parseMountFlag csvRead f).1 := by
  induction flags generalizing mounts with
  | nil => simp [withMounts, eq_comm]
  | cons f flags ih =>
    rcases hp : parseMountFlag csvRead f with ⟨m, _ | err⟩
    · simp [withMounts, hp, ih]
    · simp [withMounts, hp]

/-- **A failing `withMounts` returns the error of its first failing flag.** -/
theorem withMounts_error {mounts : List SpecMount} {flags : List String} {e : Error}
    (h : withMounts csvRead mounts flags = .error e) :
    ∃ pre f post, flags = pre ++ f :: post ∧ (∀ g ∈ pre, (parseMountFlag csvRead g).2 = none) ∧
      (parseMountFlag csvRead f).2 = some e := by
  induction flags generalizing mounts with
  | nil => simp [withMounts] at h
  | cons f flags ih =>
    rcases hp : parseMountFlag csvRead f with ⟨m, _ | err⟩
    · rw [withMounts, hp] at h
      obtain ⟨pre, g, post, rfl, hpre, hg⟩ := ih h
      exact ⟨f :: pre, g, post, rfl, by simpa [hp] using hpre, hg⟩
    · rw [withMounts, hp] at h
      cases h
      exact ⟨[], f, flags, rfl, by simp, by rw [hp]⟩

/-- **Mounts written as flags come back from `withMounts`**, in order. -/
theorem withMounts_formatMount (hcsv : CsvSplitsPlain csvRead) {ms : List SpecMount}
    (hms : ∀ m ∈ ms, PlainMount m) : withMounts csvRead [] (ms.map formatMount) = .ok ms := by
  refine withMounts_ok_iff.2 ⟨?_, ?_⟩
  · simp only [List.mem_map]
    rintro _ ⟨m, hm, rfl⟩
    rw [parseMountFlag_formatMount hcsv (hms m hm)]
  · conv_lhs => rw [← List.map_id ms]
    simp only [List.nil_append, List.map_map]
    exact List.map_congr_left fun m hm => by simp [parseMountFlag_formatMount hcsv (hms m hm)]

end Mounts

theorem withMounts_formatMount_bind :
    CsvSplitsPlain (fun s => .ok (split s ',')) ∧ PlainMount ⟨"/mnt", "bind", "/src", ["rbind", "ro"]⟩ ∧
      withMounts (fun s => .ok (split s ',')) [] ([⟨"/mnt", "bind", "/src", ["rbind", "ro"]⟩].map formatMount) =
        .ok [⟨"/mnt", "bind", "/src", ["rbind", "ro"]⟩] :=
  have hcsv : CsvSplitsPlain fun s => .ok (split s ',') := fun _ _ _ => rfl
  have hm : PlainMount ⟨"/mnt", "bind", "/src", ["rbind", "ro"]⟩ := ⟨by decide, by decide⟩
  ⟨hcsv, hm, withMounts_formatMount hcsv fun m hm' => List.mem_singleton.1 hm' ▸ hm⟩

/-! ### Labels -/

/-- A Go `map[string]string`: its entries in the order a `range` over it visits them, which Go
leaves unspecified, with no key twice. -/
structure GoMap where
  entries : List (String × String)
  nodup : (entries.map (·.1)).Nodup

namespace GoMap

/-- `make(map[string]string)`. -/
def empty : GoMap := ⟨[], List.nodup_nil⟩

/-- `m[k]`, with whether it is there. -/
def lookup (m : GoMap) (k : String) : Option String := m.entries.lookup k

/-- `m[k] = v`. -/
def insert (m : GoMap) (k v : String) : GoMap where
  entries := (k, v) :: m.entries.filter (·.1 != k)
  nodup := List.nodup_cons.2 ⟨by simp, m.nodup.sublist ((List.filter_sublist _).map _)⟩

@[simp] theorem lookup_empty (k : String) : empty.lookup k = none := rfl

@[simp] theorem lookup_insert (m : GoMap) (k v k' : String) :
    (m.insert k v).lookup k' = if k' = k then some v else m.lookup k' := by
  by_cases h : k' = k
  · simp [insert, lookup, h, List.lookup_cons]
  · simp [insert, lookup, h, List.lookup_cons, lookup_filter_ne h, beq_false_of_ne h]

end GoMap

theorem lookup_eq_none_of_not_mem {l : List (String × String)} {k : String}
    (h : k ∉ l.map (·.1)) : l.lookup k = none := by
  induction l with
  | nil => rfl
  | cons e l ih =>
    obtain ⟨k', v⟩ := e
    simp only [List.map_cons, List.mem_cons, not_or] at h
    simp [List.lookup_cons, beq_false_of_ne h.1, ih h.2]

/-- Inserting the entries of a list that pass `p`, one after the other. -/
theorem lookup_foldl_insert (p : String → String → Bool) (l : List (String × String))
    (hl : (l.map (·.1)).Nodup) (m : GoMap) (k : String) :
    (l.foldl (fun m kv => if p kv.1 kv.2 then m.insert kv.1 kv.2 else m) m).lookup k =
      ((l.lookup k).filter (p k)).or (m.lookup k) := by
  induction l generalizing m with
  | nil => rfl
  | cons e l ih =>
    obtain ⟨k', v⟩ := e
    obtain ⟨he, hl⟩ := List.nodup_cons.1 hl
    rw [List.foldl_cons, ih hl]
    by_cases hk : k = k'
    · subst hk
      rw [lookup_eq_none_of_not_mem he]
      by_cases hp : p k v <;> simp [hp, List.lookup_cons, Option.filter]
    · by_cases hp : p k' v <;> simp [hp, hk, List.lookup_cons, beq_false_of_ne hk]

/-- `buildLabels` (lines 231–247), with `valid k v` for `clabels.Validate(k, v) == nil`: the
image's labels that pass the check, then the command line's over them. -/
def buildLabels (valid : String → String → Bool) (cmdLabels imageLabels : GoMap) : GoMap :=
  cmdLabels.entries.foldl (fun labels kv => labels.insert kv.1 kv.2)
    (imageLabels.entries.foldl
      (fun labels kv => if valid kv.1 kv.2 then labels.insert kv.1 kv.2 else labels) GoMap.empty)

/-- **The container's labels**: the command line's label for a key, or else the image's if
`clabels.Validate` accepts it, in whatever order the two maps are visited. -/
theorem buildLabels_lookup (valid : String → String → Bool) (cmdLabels imageLabels : GoMap)
    (k : String) :
    (buildLabels valid cmdLabels imageLabels).lookup k =
      (cmdLabels.lookup k).or ((imageLabels.lookup k).filter (valid k)) := by
  have hcmd := lookup_foldl_insert (fun _ _ => true) cmdLabels.entries cmdLabels.nodup
  have htrue : ∀ o : Option String, o.filter (fun _ => true) = o := fun o => by cases o <;> rfl
  simp only [if_true, htrue] at hcmd
  rw [buildLabels, hcmd, lookup_foldl_insert valid _ imageLabels.nodup, GoMap.lookup_empty,
    Option.or_none]
  rfl

/-! ### Positional arguments -/

/-- The fields of `RunOptions` that `Complete` sets. -/
structure RunArgs where
  reference : String
  id : String
  containerArgs : List String
  deriving DecidableEq, Repr

/-- `RunOptions.Complete` (lines 129–136); `none` where Go panics on an index out of range. -/
def complete (o : RunArgs) (args : List String) : Option RunArgs := do
  let reference ← index args 0
  let id ← index args 1
  pure ⟨reference, id, if args.length > 2 then args.drop 2 else o.containerArgs⟩

/-- `Complete` panics exactly on fewer than two arguments, which `cobra.MinimumNArgs(2)` of
`NewRunCmd` turns away first. -/
theorem complete_eq_none_iff (o : RunArgs) (args : List String) :
    complete o args = none ↔ args.length < 2 := by
  match args with
  | [] => simp [complete, index]
  | [_] => simp [complete, index]
  | _ :: _ :: _ => simp [complete, index]

end AttributesClient
