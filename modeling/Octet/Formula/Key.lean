import Octet.Formula.Value

/-!
# Keys of dictionaries

A key is what is left of a value when all that does not matter to a dictionary is forgotten. Keys
have digests, and a dictionary compares only keys whose digests are the same. As comparison looks
into tuples up to a fixed depth and fails beyond it, digests can be observed: two deep tuples of one
digest cannot be keys of one dictionary. Part of the reference model of `evaluate`.

* `Key`, `Value.key?` — keys, and the key of a value;
* `Key.digest` — the digest of a key;
* `Key.equal?` — comparison of two keys.
-/

namespace Octet.Formula

/-! ## Keys -/

/-- The digest of a text: every byte changes some bits, and then all bits are spread. -/
def textDigest (t : Text) : UInt32 :=
  t.foldl (fun (h : UInt32) b => (h ^^^ b.toUInt32) * 16777619) 2166136261

/-- What makes two keys of a dictionary the same: equal values have equal keys, and numbers are
equal if they are the same number. -/
inductive Key where
  | none
  | bool (b : Bool)
  | int (n : Int)
  /-- A float that is no integer, by its bits. -/
  | float (bits : UInt64)
  | string (t : Text)
  | bytes (t : Text)
  | tuple (ks : List Key)
  | builtin (b : Builtin)
  /-- A function or method, by its identity, with the digest that its name gives it. -/
  | identity (n : Nat) (digest : UInt32)
  deriving BEq

/-- The key of a float. All floats that are no numbers have the same. -/
def Key.ofFloat (f : Float) : Key :=
  match Real.truncate? f with
  | some n => if Real.compareIntFloat n f == .eq then .int n else .float f.toBits
  | Option.none => if f.isNaN then .float Real.notANumber.toBits else .float f.toBits

mutual

/-- The key of a value; lists, dictionaries and what is made for iteration have none. -/
def Value.key? : Value → Option Key
  | .none => some .none
  | .bool b => some (.bool b)
  | .int n => some (.int n)
  | .float f => some (Key.ofFloat f)
  | .string b => some (.string (unpacked b))
  | .bytes b => some (.bytes (unpacked b))
  | .tuple items => (keys? items).map .tuple
  | .function identity _ name .. => some (.identity identity (textDigest name))
  | .builtin b => some (.builtin b)
  | .method identity receiver m =>
    some (.identity identity (textDigest (nameIn receiver.methods m) ^^^ 5521))
  | _ => Option.none

/-- The keys of some values. -/
def keys? : List Value → Option (List Key)
  | [] => some []
  | v :: vs =>
    match v.key?, keys? vs with
    | some k, some ks => some (k :: ks)
    | _, _ => Option.none

end

/-! ## Digests -/

/-- The digest of an integer, from its lowest 32 bits; the sign of one that does not fit them is
left out. -/
def intDigest (n : Int) : UInt32 :=
  12582917 * (UInt32.ofInt (if Word.fits32 n then n else n.natAbs) + 3)

/-- The digest of a float that is no integer: that of the integer before its point. -/
def floatDigest (f : Float) : UInt32 :=
  match Real.truncate? f with
  | some n => intDigest n
  | none => 1618033

mutual

/-- The digest of a key. -/
def Key.digest : Key → UInt32
  | .none => 0
  | .bool b => b.toUInt32
  | .int n => intDigest n
  | .float bits => floatDigest (.ofBits bits)
  | .string t => textDigest t
  | .bytes t => textDigest t
  | .tuple ks => mixedDigests (82520 + 2 * UInt32.ofNat ks.length) 0x345678 1000003 ks
  | .builtin b => textDigest b.name
  | .identity _ digest => digest

/-- The digests of some keys, mixed: each is multiplied by a factor of its own, which grows by
`step`. -/
def mixedDigests (step acc factor : UInt32) : List Key → UInt32
  | [] => acc
  | k :: ks => mixedDigests step (acc ^^^ k.digest * factor) (factor + step) ks

end

/-- The digest under which a dictionary keeps a key: zero counts as one. -/
def Key.slot (k : Key) : UInt32 := if k.digest = 0 then 1 else k.digest

/-! ## Comparison -/

/-- How deep comparison looks into values. -/
def comparisonDepth : Nat := 10

mutual

/-- Whether two keys are equal, looking at most `depth` levels deep. -/
def Key.equal? : Key → Nat → Key → Option Bool
  | _, 0, _ => Option.none
  | .tuple xs, depth + 1, .tuple ys =>
    if xs.length = ys.length then keysEqual? xs depth ys else some false
  | x, _ + 1, y => some (x == y)

/-- Whether two lists of keys of one length are equal key by key. -/
def keysEqual? : List Key → Nat → List Key → Option Bool
  | x :: xs, depth, y :: ys => do if ← x.equal? depth y then keysEqual? xs depth ys else some false
  | _, _, _ => some true

end

end Octet.Formula
