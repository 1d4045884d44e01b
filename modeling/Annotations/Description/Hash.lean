import Annotations.Description.Lookup

/-!
# Hashing under a depth limit

The hash of an annotation is the sum, over its accessors, of thirty-one times the hashes of their
values; so the order of the accessors does not matter. In an array the order does matter: from one
on, thirty-one times what was before and the next element are added. Other values are digested by
their bytes. Levels are counted as for equality.
-/

namespace Annotations

namespace Value

mutual

/-- The hash of a value, with that of nested annotations given. -/
def hashBy (inner : Description → Eval UInt64) : Value → Eval UInt64
  | boolean b => pure (digest (Digest.bytes 1 (if b then 1 else 0)))
  | byte n => pure (digest (Digest.bytes 1 n.toUInt8.toUInt64))
  | char c => pure (digest (Digest.bytes 4 c.val.toUInt64))
  | short n => pure (digest (Digest.bytes 2 n.toUInt16.toUInt64))
  | int n => pure (digest (Digest.bytes 4 n.toUInt32.toUInt64))
  | long n => pure (digest (Digest.bytes 8 n.toUInt64))
  | float x => pure (digest (Digest.bytes 4 x.bits.toUInt64))
  | double x => pure (digest (Digest.bytes 8 x.bits))
  | string s => pure (digest (Digest.textBytes s))
  | type t => pure t.digest
  | constant c => pure c.digest
  | nested d => inner d
  | array vs => hashAllBy inner 1 vs

/-- The hash of an array whose first elements have given `hash`. -/
def hashAllBy (inner : Description → Eval UInt64) : (hash : UInt64) → List Value → Eval UInt64
  | hash, [] => pure hash
  | hash, v :: vs => do
    let h ← hashBy inner v
    hashAllBy inner (hash * 31 + h) vs

end

end Value

namespace Description

/-- The sum over the accessors, added to `hash`. -/
def hashOn (hashOf : Value → Eval UInt64) (d : Description) :
    (hash : UInt64) → List Accessor → Eval UInt64
  | hash, [] => pure hash
  | hash, x :: xs => do
    let v ← d.get x.handle
    let h ← hashOf v
    hashOn hashOf d (hash + h * 31) xs

/-- The hash of an annotation that may enter `room` levels. -/
def hashWithin (limit : Nat) : (room : Nat) → Description → Eval UInt64
  | 0, _ => throw (.recursionLimit limit)
  | room + 1, d => hashOn (Value.hashBy (hashWithin limit room)) d 0 d.type.accessors

/-- The hash of an annotation under a limit. -/
def hash (limit : Nat) (d : Description) : Eval UInt64 :=
  hashWithin limit limit d

end Description

/-- The hash of a value under a limit. -/
def Value.hash (limit : Nat) (v : Value) : Eval UInt64 :=
  hashBy (Description.hashWithin limit limit) v

end Annotations
