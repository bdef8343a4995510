import EbpfWindows.ExecutionContext.LpmMap
import EbpfWindows.Runtime.HashTable.Spec
import EbpfWindows.Runtime.HashTable.Bounded

/-! What an LPM map is for: a trie of values under bit strings, whose lookup finds the
longest prefix of the given bits that it holds.

A key stands for the first `prefix_length` bits of its prefix (`keyBits`). `LpmStep`
says what each call does to the trie of stored prefixes: an update or a delete of the
key's bits, as the hash map's option specifies, or a refusal that leaves the trie as it
was; a lookup returns the value under the longest stored prefix of the key's bits, and
hands the caller's key back as it was.
-/

set_option autoImplicit false

namespace EbpfWindows.ExecutionContext

open EbpfWindows.Runtime Bytes

/-- Values under bit strings. -/
abbrev LpmTrie := Finmap fun _ : List Bool => List UInt8

namespace LpmTrie

variable (trie : LpmTrie) (bits : List Bool) (value : List UInt8)

/-- An update of the value under `bits`, by the operations of `ebpf_hash_table_update`. -/
def update : EbpfHashTableOperations → EbpfResult × LpmTrie
  | .any => (.success, trie.insert bits value)
  | .insert => if bits ∈ trie then (.objectAlreadyExists, trie) else (.success, trie.insert bits value)
  | .replace => if bits ∈ trie then (.success, trie.insert bits value) else (.keyNotFound, trie)

def delete : EbpfResult × LpmTrie :=
  if bits ∈ trie then (.success, trie.erase bits) else (.keyNotFound, trie)

/-- The length of the longest prefix of `bits` the trie holds, zero when it holds none. -/
def longestMatch : Nat :=
  Nat.findGreatest (fun length => bits.take length ∈ trie) bits.length

/-- The value under the longest prefix of `bits` the trie holds. -/
def find : EbpfResult × Option (List UInt8) :=
  match trie.lookup (bits.take (trie.longestMatch bits)) with
  | some value => (.success, some value)
  | none => (.keyNotFound, none)

variable {trie bits}

theorem find_eq_match : trie.find bits =
    match (trie.find bits).2 with
    | some value => (.success, some value)
    | none => (.keyNotFound, none) := by
  unfold find
  cases trie.lookup (bits.take (trie.longestMatch bits)) <;> rfl

theorem find_of_longest {length : Nat} (le : length ≤ bits.length) (holds : bits.take length ∈ trie)
    (longest : ∀ longer, length < longer → longer ≤ bits.length → bits.take longer ∉ trie) :
    trie.find bits = (.success, trie.lookup (bits.take length)) := by
  have greatest : trie.longestMatch bits = length :=
    Nat.findGreatest_eq_iff.mpr ⟨le, fun _ => holds, fun longer above below => longest longer above below⟩
  obtain ⟨stored, bound⟩ := Finmap.mem_iff.mp holds
  unfold find
  rw [greatest, bound]

theorem find_of_none (nothing : ∀ length ≤ bits.length, bits.take length ∉ trie) :
    trie.find bits = (.keyNotFound, none) := by
  have zero : trie.longestMatch bits = 0 :=
    Nat.findGreatest_eq_zero_iff.mpr fun {length} _ below => nothing length below
  unfold find
  rw [zero, Finmap.lookup_eq_none.mpr (nothing 0 (Nat.zero_le _))]

theorem find_fst_eq_keyNotFound_iff :
    (trie.find bits).1 = .keyNotFound ↔ ∀ length ≤ bits.length, bits.take length ∉ trie := by
  constructor
  · intro failed length below holds
    have stored : bits.take (trie.longestMatch bits) ∈ trie :=
      @Nat.findGreatest_spec length (fun length => bits.take length ∈ trie) _ bits.length below holds
    obtain ⟨found, bound⟩ := Finmap.mem_iff.mp stored
    unfold find at failed
    rw [bound] at failed
    cases failed
  · intro nothing
    rw [find_of_none nothing]

theorem update_of_success {operation : EbpfHashTableOperations} {next : LpmTrie}
    (updated : trie.update bits value operation = (.success, next)) : next = trie.insert bits value := by
  cases operation <;> simp only [update] at updated
  · exact (Prod.mk.inj updated).2.symm
  all_goals
    split_ifs at updated
    all_goals first | exact (Prod.mk.inj updated).2.symm | cases updated

theorem update_of_ne_success {operation : EbpfHashTableOperations} {result : EbpfResult} {next : LpmTrie}
    (updated : trie.update bits value operation = (result, next)) (failed : result ≠ .success) : next = trie := by
  cases operation <;> simp only [update] at updated
  · exact absurd (Prod.mk.inj updated).1.symm failed
  all_goals
    split_ifs at updated
    all_goals first | exact (Prod.mk.inj updated).2.symm | exact absurd (Prod.mk.inj updated).1.symm failed

theorem mem_of_mem_delete {other : List Bool} (member : other ∈ (trie.delete bits).2) : other ∈ trie := by
  unfold delete at member
  split_ifs at member
  · exact (Finmap.mem_erase.mp member).2
  · exact member

end LpmTrie

/-- The bits a key stands for at a prefix length: the first `length` bits after its
`prefix_length` field. -/
def keyBits (key : List UInt8) (length : UInt32) : List Bool :=
  msbBits (key.drop 4) length.toNat

theorem take_keyBits (key : List UInt8) {length shorter : UInt32} (le : shorter ≤ length) :
    (keyBits key length).take shorter.toNat = keyBits key shorter := by
  rw [keyBits, take_msbBits, Nat.min_eq_left (UInt32.le_iff_toNat_le.mp le)]
  rfl

/-- One call on an LPM map whose prefixes have at most `maxPrefix` bits and whose keys have
`keySize` bytes, on the trie of stored prefixes, with values stored as `storedValue` makes them:
a refused call leaves the trie as it was; an update or a delete of a key's bits does what the
trie's operation specifies, or fails as the environment failed, or, for a new prefix, is refused
for want of room in its bucket, which only a trie beyond the layout bound of `keySize` can leave;
a lookup returns the value under the longest stored prefix of the key's bits, and the caller's
key as it was. -/
def LpmStep (maxPrefix : UInt32) (keySize : UInt64) (storedValue : Option (List UInt8) → List UInt8) (trie : LpmTrie) :
    LpmOperation → EbpfResult × Option (List UInt8) × Option (List UInt8) → LpmTrie → Prop
  | .update none _ _ _, output, next => output = (.invalidArgument, none, none) ∧ next = trie
  | .update (some key) data option environment, output, next =>
    output.2 = (none, some key) ∧
      if prefixLength key > maxPrefix then output.1 = .invalidArgument ∧ next = trie
      else
        match tableOperation option with
        | none => output.1 = .invalidArgument ∧ next = trie
        | some operation =>
          (output.1, next) = trie.update (keyBits key (prefixLength key)) (storedValue data) operation ∨
            environment.Failure output.1 ∧ next = trie ∨
            output.1 = .arithmeticOverflow ∧ ¬ LayoutFits keySize trie.keys.card ∧
              keyBits key (prefixLength key) ∉ trie ∧ next = trie
  | .delete key environment, output, next =>
    output.2 = (none, some key) ∧
      if prefixLength key > maxPrefix then output.1 = .invalidArgument ∧ next = trie
      else
        (output.1, next) = trie.delete (keyBits key (prefixLength key)) ∨
          environment.Failure output.1 ∧ next = trie
  | .find none _ _, output, next => output = (.invalidArgument, none, none) ∧ next = trie
  | .find (some key) flags _, output, next =>
    next = trie ∧
      if flags &&& ebpfMapFindFlagDelete ≠ 0 ∨ prefixLength key > maxPrefix then
        output = (.invalidArgument, none, some key)
      else
        (output.1, output.2.1) = trie.find (keyBits key (prefixLength key)) ∧
          (4 ≤ key.length → output.2.2 = some key)

end EbpfWindows.ExecutionContext
