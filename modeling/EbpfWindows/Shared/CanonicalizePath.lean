import EbpfWindows.Runtime.Result
import EbpfWindows.Lib.Successor
import EbpfWindows.Lib.Except

/-! `ebpf_canonicalize_path` (`shared_common.c`): the key an object is pinned under.

The input is the string before its terminator and the result is the string the output buffer
holds before its terminator. The function checks the buffer size once, copies `BPF:`, a `\\`
for a relative path and the input into the buffer, turns `/` into `\\`, drops a leading
`\\ebpf\\global` alias, and then rewrites the string in place with an index that moves back on
`..`. That last loop runs on fuel here; every turn lowers `2 * length - i`, so the fuel it is
given suffices.
-/

set_option autoImplicit false

namespace EbpfWindows

open Successor

/-- `DEVICE_PREFIX_SIZE`, the length of `"BPF:"`. -/
def devicePrefixSize : Nat := 4

def devicePrefix : List Char := "BPF:".toList

/-- `_strnicmp (text, pattern, count) == 0`: the first `count` characters agree up to case, and a
text that ends first does not. -/
def strnicmpEq (text pattern : List Char) (count : Nat) : Bool :=
  (text.take count).map Char.toLower == (pattern.take count).map Char.toLower

/-- `strncmp (text, pattern, count) == 0`. -/
def strncmpEq (text pattern : List Char) (count : Nat) : Bool :=
  text.take count == pattern.take count

/-- `strcpy_s`, which fails unless the source and its terminator fit. -/
def strcpyS (size : Nat) (source : List Char) : Option (List Char) :=
  if source.length < size then some source else none

/-- `strcat_s`, which fails unless both strings and the terminator fit. -/
def strcatS (size : Nat) (destination source : List Char) : Option (List Char) :=
  if destination.length + source.length < size then some (destination ++ source) else none

def isRelative (input : List Char) : Bool :=
  input.head? != some '/' && input.head? != some '\\'

def hasDevicePrefix (input : List Char) : Bool :=
  strnicmpEq input devicePrefix devicePrefixSize

def pathAfterPrefix (input : List Char) : List Char :=
  if hasDevicePrefix input then input.drop devicePrefixSize else input

def pathAfterDevice (input : List Char) : List Char :=
  (if isRelative input then ['\\'] else []) ++ pathAfterPrefix input

/-- `required_size`: the prefix, the terminator, a `\\` for a relative path and the input less any
device prefix. -/
def requiredSize (input : List Char) : Nat :=
  devicePrefixSize + 1 + (if isRelative input then 1 else 0) +
    (if hasDevicePrefix input then input.length - devicePrefixSize else input.length)

/-- The loop that turns `/` into `\\` and refuses a `:` after the device prefix. -/
def convertSeparators : List Char → Except EbpfResult (List Char)
  | [] => .ok []
  | character :: rest =>
    if character = '/' then (convertSeparators rest).map fun rest => '\\' :: rest
    else if character = ':' then .error .invalidArgument
    else (convertSeparators rest).map fun rest => character :: rest

/-- The `memmove` that drops a leading `\\ebpf\\global` alias. -/
def removeAliasPrefix (output : List Char) : List Char :=
  if strnicmpEq (output.drop devicePrefixSize) "\\ebpf\\global\\".toList 13 then
    output.take (devicePrefixSize + 1) ++ output.drop (devicePrefixSize + 13)
  else output

/-- `ebpf_canonicalize_path` up to the rewriting loop: the size check, the copies and the
separators. -/
def prepareOutput (outputSize : Nat) (input : List Char) : Except EbpfResult (List Char) := do
  if outputSize < requiredSize input then throw .insufficientBuffer
  let output ← resultOr .invalidArgument (strcpyS outputSize devicePrefix)
  let output ← if isRelative input then resultOr .insufficientBuffer (strcatS outputSize output ['\\'])
    else pure output
  let output ← resultOr .insufficientBuffer (strcatS outputSize output (pathAfterPrefix input))
  let converted ← convertSeparators (output.drop devicePrefixSize)
  pure (removeAliasPrefix (output.take devicePrefixSize ++ converted))

/-- The walk back of the two `..` branches from `previous_index = i`: while it is past the
prefix it steps back, and it stops at a `\\`. -/
def previousSeparator (output : List Char) : Nat → Option Nat
  | 0 => none
  | previousIndex + 1 =>
    if devicePrefixSize < previousIndex + 1 then
      if output[previousIndex]? = some '\\' then some previousIndex
      else previousSeparator output previousIndex
    else none

/-- One turn of the rewriting loop at `i`, `none` where a `..` has no separator before it. -/
def canonicalizeStep (output : List Char) (i : Nat) : Option (List Char × Nat) :=
  if strncmpEq (output.drop i) "\\\\".toList 2 then some (output.take (i + 1) ++ output.drop (i + 2), i)
  else if strncmpEq (output.drop i) "\\.\\".toList 3 then some (output.take (i + 1) ++ output.drop (i + 3), i)
  else if strncmpEq (output.drop i) "\\..\\".toList 4 then
    (previousSeparator output i).map fun previousIndex =>
      (output.take (previousIndex + 1) ++ output.drop (i + 4), previousIndex)
  else if output.drop i = "\\..".toList then
    (previousSeparator output i).map fun previousIndex => (output.take previousIndex, previousIndex)
  else some (output, i + 1)

/-- The rewriting loop, on fuel; `none` only when the fuel runs out. -/
def canonicalizeLoop : Nat → List Char → Nat → Option (Except EbpfResult (List Char))
  | 0, _, _ => none
  | fuel + 1, output, i =>
    if i < output.length then
      match canonicalizeStep output i with
      | some (output, i) => canonicalizeLoop fuel output i
      | none => some (.error .invalidArgument)
    else some (.ok output)

/-- `ebpf_canonicalize_path`, with the buffer's string as the result; the loop's fuel suffices
(`ebpfCanonicalizePath_isSome`). -/
def ebpfCanonicalizePath (outputSize : Nat) (input : List Char) : Option (Except EbpfResult (List Char)) :=
  match prepareOutput outputSize input with
  | .error result => some (.error result)
  | .ok output => canonicalizeLoop (2 * output.length + 1) output devicePrefixSize

-- The expectations of the pin path test of `end_to_end.cpp`.
example : ebpfCanonicalizePath 260 "my/pin/oops/again/../../path".toList = some (.ok "BPF:\\my\\pin\\path".toList) := by
  decide
example : ebpfCanonicalizePath 260 "/ebpf/global/my/pin/path".toList = some (.ok "BPF:\\my\\pin\\path".toList) := by
  decide
example : ebpfCanonicalizePath 260 "/mypinpath/../..".toList = some (.error .invalidArgument) := by
  decide

theorem devicePrefixSize_eq : devicePrefixSize = 4 := rfl

theorem previousSeparator_bounds {output : List Char} :
    ∀ {i previousIndex : Nat}, previousSeparator output i = some previousIndex →
      devicePrefixSize ≤ previousIndex ∧ previousIndex < i
  | 0, _, found => by simp [previousSeparator] at found
  | i + 1, previousIndex, found => by
    simp only [previousSeparator] at found
    split_ifs at found with above separator
    · cases found
      exact ⟨by omega, by omega⟩
    · have earlier := previousSeparator_bounds found
      omega

theorem length_le_of_strncmpEq {text pattern : List Char} {count : Nat}
    (same : strncmpEq text pattern count = true) (long : count ≤ pattern.length) : count ≤ text.length := by
  have lengths := congrArg List.length (beq_iff_eq.mp same)
  simp only [List.length_take] at lengths
  omega

theorem length_le_of_strnicmpEq {text pattern : List Char} {count : Nat}
    (same : strnicmpEq text pattern count = true) (long : count ≤ pattern.length) : count ≤ text.length := by
  have lengths := congrArg List.length (beq_iff_eq.mp same)
  simp only [List.length_map, List.length_take] at lengths
  omega

theorem canonicalizeStep_cases {output next : List Char} {i j : Nat}
    (stepped : canonicalizeStep output i = some (next, j)) :
    (∃ width, 2 ≤ width ∧ width ≤ 3 ∧ i + width ≤ output.length ∧
        next = output.take (i + 1) ++ output.drop (i + width) ∧ j = i) ∨
      (∃ previousIndex, devicePrefixSize ≤ previousIndex ∧ previousIndex < i ∧ i + 4 ≤ output.length ∧
        next = output.take (previousIndex + 1) ++ output.drop (i + 4) ∧ j = previousIndex) ∨
      (∃ previousIndex, devicePrefixSize ≤ previousIndex ∧ previousIndex < i ∧ output.length = i + 3 ∧
        next = output.take previousIndex ∧ j = previousIndex) ∨
      (next = output ∧ j = i + 1) := by
  unfold canonicalizeStep at stepped
  split_ifs at stepped with doubled dotted dotdot trailing
  · have long := length_le_of_strncmpEq doubled (by decide)
    obtain ⟨rfl, rfl⟩ := Prod.mk.inj (Option.some.inj stepped)
    exact .inl ⟨2, by omega, by omega, by simp at long; omega, rfl, rfl⟩
  · have long := length_le_of_strncmpEq dotted (by decide)
    obtain ⟨rfl, rfl⟩ := Prod.mk.inj (Option.some.inj stepped)
    exact .inl ⟨3, by omega, by omega, by simp at long; omega, rfl, rfl⟩
  · have long := length_le_of_strncmpEq dotdot (by decide)
    obtain ⟨previousIndex, found, same⟩ := Option.map_eq_some_iff.mp stepped
    obtain ⟨rfl, rfl⟩ := Prod.mk.inj same
    exact .inr (.inl ⟨previousIndex, (previousSeparator_bounds found).1, (previousSeparator_bounds found).2,
      by simp at long; omega, rfl, rfl⟩)
  · have ends := congrArg List.length trailing
    have three : ("\\..".toList).length = 3 := by decide
    obtain ⟨previousIndex, found, same⟩ := Option.map_eq_some_iff.mp stepped
    obtain ⟨rfl, rfl⟩ := Prod.mk.inj same
    exact .inr (.inr (.inl ⟨previousIndex, (previousSeparator_bounds found).1,
      (previousSeparator_bounds found).2, by simp at ends; omega, rfl, rfl⟩))
  · obtain ⟨rfl, rfl⟩ := Prod.mk.inj (Option.some.inj stepped)
    exact .inr (.inr (.inr ⟨rfl, rfl⟩))

theorem canonicalizeStep_decreases {output next : List Char} {i j : Nat}
    (stepped : canonicalizeStep output i = some (next, j)) (inside : i < output.length) :
    2 * next.length - j < 2 * output.length - i := by
  rcases canonicalizeStep_cases stepped with
    ⟨width, wide, -, long, rfl, rfl⟩ | ⟨previousIndex, -, before, long, rfl, rfl⟩ |
      ⟨previousIndex, -, before, ends, rfl, rfl⟩ | ⟨rfl, rfl⟩
  · simp only [List.length_append, List.length_take, List.length_drop]
    omega
  · simp only [List.length_append, List.length_take, List.length_drop]
    omega
  · simp only [List.length_take]
    omega
  · omega

theorem drop_take_append_drop_sublist {α : Type} (l : List α) {skip start stop : Nat}
    (kept : skip ≤ start) (ordered : start ≤ stop) (long : start ≤ l.length) :
    ((l.take start ++ l.drop stop).drop skip).Sublist (l.drop skip) := by
  have rest : l.drop stop = (l.drop skip).drop (stop - skip) := by
    rw [List.drop_drop, Nat.add_sub_cancel' (Nat.le_trans kept ordered)]
  rw [List.drop_append_of_le_length (by simp; omega), List.drop_take, rest]
  calc ((l.drop skip).take (start - skip) ++ (l.drop skip).drop (stop - skip)).Sublist
        ((l.drop skip).take (start - skip) ++ (l.drop skip).drop (start - skip)) :=
        (List.drop_sublist_drop_left _ (by omega)).append_left _
    _ = l.drop skip := List.take_append_drop _ _

theorem take_take_append_drop {α : Type} (l : List α) {count start stop : Nat}
    (kept : count ≤ start) (long : start ≤ l.length) :
    (l.take start ++ l.drop stop).take count = l.take count := by
  rw [List.take_append_of_le_length (by simp; omega), List.take_take, Nat.min_eq_left kept]

theorem canonicalizeStep_keeps {output next : List Char} {i j : Nat}
    (stepped : canonicalizeStep output i = some (next, j)) (past : devicePrefixSize ≤ i) :
    devicePrefixSize ≤ j ∧ next.take devicePrefixSize = output.take devicePrefixSize ∧
      (next.drop devicePrefixSize).Sublist (output.drop devicePrefixSize) := by
  rcases canonicalizeStep_cases stepped with
    ⟨width, wide, -, long, rfl, rfl⟩ | ⟨previousIndex, above, before, long, rfl, rfl⟩ |
      ⟨previousIndex, above, before, ends, rfl, rfl⟩ | ⟨rfl, rfl⟩
  · exact ⟨past, take_take_append_drop output (by omega) (by omega),
      drop_take_append_drop_sublist output (by omega) (by omega) (by omega)⟩
  · exact ⟨above, take_take_append_drop output (by omega) (by omega),
      drop_take_append_drop_sublist output (by omega) (by omega) (by omega)⟩
  · refine ⟨above, by rw [List.take_take, Nat.min_eq_left above], ?_⟩
    rw [List.drop_take]
    exact List.take_sublist _ _
  · exact ⟨by omega, rfl, List.Sublist.refl _⟩

theorem canonicalizeLoop_isSome :
    ∀ (fuel : Nat) (output : List Char) (i : Nat), 2 * output.length - i < fuel →
      (canonicalizeLoop fuel output i).isSome
  | 0, _, _, enough => absurd enough (Nat.not_lt_zero _)
  | fuel + 1, output, i, enough => by
    simp only [canonicalizeLoop]
    split
    · next inside =>
      split
      · next next j stepped =>
        have lower := canonicalizeStep_decreases stepped inside
        exact canonicalizeLoop_isSome fuel next j (by omega)
      · rfl
    · rfl

theorem canonicalizeLoop_spec :
    ∀ {fuel : Nat} {output : List Char} {i : Nat} {result : Except EbpfResult (List Char)},
      canonicalizeLoop fuel output i = some result → devicePrefixSize ≤ i →
      result = .error .invalidArgument ∨
        ∃ final, result = .ok final ∧ final.take devicePrefixSize = output.take devicePrefixSize ∧
          (final.drop devicePrefixSize).Sublist (output.drop devicePrefixSize)
  | 0, _, _, _, ended, _ => by simp [canonicalizeLoop] at ended
  | fuel + 1, output, i, result, ended, past => by
    simp only [canonicalizeLoop] at ended
    split at ended
    · next inside =>
      split at ended
      · next next j stepped =>
        obtain ⟨past', prefixKept, removed⟩ := canonicalizeStep_keeps stepped past
        rcases canonicalizeLoop_spec ended past' with invalid | ⟨final, rfl, same, fewer⟩
        · exact .inl invalid
        · exact .inr ⟨final, rfl, same.trans prefixKept, fewer.trans removed⟩
      · exact .inl (Option.some.inj ended).symm
    · exact .inr ⟨output, (Option.some.inj ended).symm, rfl, List.Sublist.refl _⟩

theorem convertSeparators_eq (path : List Char) :
    convertSeparators path =
      if ':' ∈ path then .error .invalidArgument
      else .ok (path.map fun character => if character = '/' then '\\' else character) := by
  induction path with
  | nil => rfl
  | cons character rest ih =>
    simp only [convertSeparators, ih, List.mem_cons, List.map_cons]
    by_cases slash : character = '/'
    · subst slash
      split_ifs <;> simp_all [Except.map]
    · by_cases colon : character = ':'
      · simp [colon]
      · have colon' : ':' ≠ character := Ne.symm colon
        split_ifs <;> simp_all [Except.map]

theorem requiredSize_eq (input : List Char) :
    requiredSize input = devicePrefixSize + 1 + (pathAfterDevice input).length := by
  unfold requiredSize pathAfterDevice pathAfterPrefix
  split_ifs <;> simp <;> omega

theorem prepareOutput_of_lt {outputSize : Nat} {input : List Char} (short : outputSize < requiredSize input) :
    prepareOutput outputSize input = .error .insufficientBuffer := by
  simp only [prepareOutput, if_pos short]
  rfl

theorem prepareOutput_of_le {outputSize : Nat} {input : List Char} (fits : requiredSize input ≤ outputSize) :
    prepareOutput outputSize input =
      (convertSeparators (pathAfterDevice input)).map fun converted =>
        removeAliasPrefix (devicePrefix ++ converted) := by
  have room := fits
  rw [requiredSize_eq, devicePrefixSize_eq] at room
  unfold pathAfterDevice at room
  have copied : strcpyS outputSize devicePrefix = some devicePrefix :=
    if_pos (by simp only [List.length_append] at room; simp [devicePrefix]; omega)
  simp only [prepareOutput, if_neg (Nat.not_lt.mpr fits), copied, resultOr, Except.ok_bind]
  cases relative : isRelative input
  · have appended : strcatS outputSize devicePrefix (pathAfterPrefix input) =
        some (devicePrefix ++ pathAfterPrefix input) :=
      if_pos (by simp [relative, devicePrefix] at room ⊢; omega)
    simp only [Bool.false_eq_true, if_false, pure_bind, appended, Except.ok_bind]
    simp [pathAfterDevice, relative, devicePrefixSize, devicePrefix]
    rfl
  · have separated : strcatS outputSize devicePrefix ['\\'] = some (devicePrefix ++ ['\\']) :=
      if_pos (by simp [relative, devicePrefix] at room ⊢; omega)
    have appended : strcatS outputSize (devicePrefix ++ ['\\']) (pathAfterPrefix input) =
        some (devicePrefix ++ ['\\'] ++ pathAfterPrefix input) :=
      if_pos (by simp [relative, devicePrefix] at room ⊢; omega)
    simp only [separated, appended, if_true, Except.ok_bind]
    simp [pathAfterDevice, relative, devicePrefixSize, devicePrefix]
    rfl

theorem removeAliasPrefix_keeps (output : List Char) :
    (removeAliasPrefix output).take devicePrefixSize = output.take devicePrefixSize ∧
      ((removeAliasPrefix output).drop devicePrefixSize).Sublist (output.drop devicePrefixSize) := by
  unfold removeAliasPrefix
  split_ifs with aliased
  · -- the alias `\ebpf\global\` is 13 characters after the prefix, so it was all there
    have long := length_le_of_strnicmpEq aliased (by decide)
    simp only [List.length_drop, devicePrefixSize_eq] at long ⊢
    exact ⟨take_take_append_drop output (by omega) (by omega),
      drop_take_append_drop_sublist output (by omega) (by omega) (by omega)⟩
  · exact ⟨rfl, List.Sublist.refl _⟩

theorem prepareOutput_eq_error {outputSize : Nat} {input : List Char} {result : EbpfResult}
    (failed : prepareOutput outputSize input = .error result) :
    result = .insufficientBuffer ∧ outputSize < requiredSize input ∨
      result = .invalidArgument ∧ ':' ∈ pathAfterPrefix input := by
  by_cases short : outputSize < requiredSize input
  · rw [prepareOutput_of_lt short] at failed
    exact .inl ⟨(Except.error.inj failed).symm, short⟩
  · rw [prepareOutput_of_le (Nat.not_lt.mp short), convertSeparators_eq] at failed
    split_ifs at failed with colon
    · refine .inr ⟨(Except.error.inj failed).symm, ?_⟩
      unfold pathAfterDevice at colon
      split_ifs at colon <;> simpa using colon
    · cases failed

theorem prepareOutput_eq_ok {outputSize : Nat} {input prepared : List Char}
    (prepared_eq : prepareOutput outputSize input = .ok prepared) :
    prepared.length < outputSize ∧ prepared.take devicePrefixSize = devicePrefix ∧
      ∀ character ∈ prepared.drop devicePrefixSize, character ≠ '/' ∧ character ≠ ':' := by
  by_cases short : outputSize < requiredSize input
  · rw [prepareOutput_of_lt short] at prepared_eq
    cases prepared_eq
  · have fits := Nat.not_lt.mp short
    rw [prepareOutput_of_le fits, convertSeparators_eq] at prepared_eq
    split_ifs at prepared_eq with colon
    · cases prepared_eq
    · set converted := (pathAfterDevice input).map fun character => if character = '/' then '\\' else character
      obtain rfl : removeAliasPrefix (devicePrefix ++ converted) = prepared := Except.ok.inj prepared_eq
      obtain ⟨kept, removed⟩ := removeAliasPrefix_keeps (devicePrefix ++ converted)
      have prefixLength : devicePrefix.length = devicePrefixSize := rfl
      rw [List.take_left' prefixLength] at kept
      rw [List.drop_left' prefixLength] at removed
      refine ⟨?_, kept, ?_⟩
      · -- the prefix and at most the converted path: one character less than the required size
        have shorter := removed.length_le
        have whole := congrArg List.length
          (List.take_append_drop devicePrefixSize (removeAliasPrefix (devicePrefix ++ converted)))
        rw [List.length_append, kept, prefixLength] at whole
        have sameLength : converted.length = (pathAfterDevice input).length := List.length_map _
        rw [requiredSize_eq] at fits
        omega
      · intro character member
        obtain ⟨source, inPath, rfl⟩ := List.mem_map.mp (removed.subset member)
        split_ifs with slash
        · exact ⟨by decide, by decide⟩
        · exact ⟨slash, fun same => colon (same ▸ inPath)⟩

theorem ebpfCanonicalizePath_isSome (outputSize : Nat) (input : List Char) :
    (ebpfCanonicalizePath outputSize input).isSome := by
  unfold ebpfCanonicalizePath
  split
  · rfl
  · exact canonicalizeLoop_isSome _ _ _ (by omega)

theorem ebpfCanonicalizePath_eq_insufficientBuffer_iff (outputSize : Nat) (input : List Char) :
    ebpfCanonicalizePath outputSize input = some (.error .insufficientBuffer) ↔
      outputSize < requiredSize input := by
  constructor
  · intro refused
    unfold ebpfCanonicalizePath at refused
    split at refused
    · next result failed =>
      obtain ⟨rfl⟩ := Option.some.inj refused
      rcases prepareOutput_eq_error failed with ⟨-, short⟩ | ⟨wrong, -⟩
      · exact short
      · cases wrong
    · rcases canonicalizeLoop_spec refused (Nat.le_refl _) with wrong | ⟨_, wrong, -⟩ <;> cases wrong
  · intro short
    rw [ebpfCanonicalizePath, prepareOutput_of_lt short]

theorem ebpfCanonicalizePath_fits {outputSize : Nat} {input output : List Char}
    (succeeded : ebpfCanonicalizePath outputSize input = some (.ok output)) :
    output.length < outputSize ∧ output.take devicePrefixSize = devicePrefix ∧
      ∀ character ∈ output.drop devicePrefixSize, character ≠ '/' ∧ character ≠ ':' := by
  unfold ebpfCanonicalizePath at succeeded
  split at succeeded
  · cases succeeded
  · next prepared prepared_eq =>
    obtain ⟨fits, prefixed, clean⟩ := prepareOutput_eq_ok prepared_eq
    rcases canonicalizeLoop_spec succeeded (Nat.le_refl _) with wrong | ⟨final, same, kept, removed⟩
    · cases wrong
    · obtain rfl := Except.ok.inj same
      have shorter := removed.length_le
      have whole := congrArg List.length (List.take_append_drop devicePrefixSize output)
      have wholePrepared := congrArg List.length (List.take_append_drop devicePrefixSize prepared)
      rw [kept, List.length_append] at whole
      rw [List.length_append] at wholePrepared
      refine ⟨by omega, kept.trans prefixed, fun character member => clean character (removed.subset member)⟩

theorem ebpfCanonicalizePath_of_colon {outputSize : Nat} {input : List Char}
    (fits : requiredSize input ≤ outputSize) (colon : ':' ∈ pathAfterPrefix input) :
    ebpfCanonicalizePath outputSize input = some (.error .invalidArgument) := by
  rw [ebpfCanonicalizePath, prepareOutput_of_le fits, convertSeparators_eq,
    if_pos (show ':' ∈ pathAfterDevice input from List.mem_append_right _ colon)]
  rfl

theorem ebpfCanonicalizePath_error {outputSize : Nat} {input : List Char} {result : EbpfResult}
    (failed : ebpfCanonicalizePath outputSize input = some (.error result)) :
    result = .insufficientBuffer ∨ result = .invalidArgument := by
  unfold ebpfCanonicalizePath at failed
  split at failed
  · next prepared =>
    obtain rfl := Except.error.inj (Option.some.inj failed)
    rcases prepareOutput_eq_error prepared with ⟨rfl, -⟩ | ⟨rfl, -⟩
    · exact .inl rfl
    · exact .inr rfl
  · rcases canonicalizeLoop_spec failed (Nat.le_refl _) with invalid | ⟨_, wrong, -⟩
    · exact .inr (Except.error.inj invalid)
    · cases wrong

/-! ## The meaning of a pin path

What the canonical form is meant to name: the segments of the path once the device prefix is
stripped, empty and `.` segments dropped, each `..` has removed the segment before it, and a
leading `ebpf`, `global` alias pair is dropped; a `:` after the prefix, or a `..` with nothing
before it, has no meaning.
-/

def pathSeparator (character : Char) : Bool :=
  character == '/' || character == '\\'

def resolveSegment (kept : Option (List (List Char))) (segment : List Char) : Option (List (List Char)) :=
  kept.bind fun kept =>
    if segment = [] ∨ segment = ['.'] then some kept
    else if segment = ['.', '.'] then
      match kept with
      | [] => none
      | _ :: rest => some rest
    else some (segment :: kept)

def dropAlias : List (List Char) → List (List Char)
  | first :: second :: rest =>
    if first.map Char.toLower = "ebpf".toList ∧ second.map Char.toLower = "global".toList then rest
    else first :: second :: rest
  | segments => segments

/-- The segments a pin path names, `none` where it names none. -/
def pinPathMeaning (path : List Char) : Option (List (List Char)) :=
  if ':' ∈ pathAfterPrefix path then none
  else ((((pathAfterPrefix path).splitOnP pathSeparator).foldl resolveSegment (some [])).map List.reverse).map dropAlias

/-- The canonical form of a list of segments: the device, a `\\`, and the segments joined by `\\`. -/
def canonicalPinPath (segments : List (List Char)) : List Char :=
  "BPF:\\".toList ++ ['\\'].intercalate segments

/-- One meaning, two pin paths, and a refusal of a path with a meaning: a final `.` segment
is kept, and the alias is dropped before `..` is resolved. -/
theorem canonicalize_path_keeps_a_final_dot_and_drops_the_alias_too_early :
    pinPathMeaning "my/pin/.".toList = some ["my".toList, "pin".toList] ∧
      pinPathMeaning "my/pin".toList = some ["my".toList, "pin".toList] ∧
      ebpfCanonicalizePath 260 "my/pin".toList = some (.ok (canonicalPinPath ["my".toList, "pin".toList])) ∧
      ebpfCanonicalizePath 260 "my/pin/.".toList = some (.ok "BPF:\\my\\pin\\.".toList) ∧
      pinPathMeaning "/ebpf/global/../x".toList = some ["ebpf".toList, "x".toList] ∧
      ebpfCanonicalizePath 260 "/ebpf/global/../x".toList = some (.error .invalidArgument) := by
  decide

end EbpfWindows
