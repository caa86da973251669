/-!
# Identifiers

An identifier is a ULID, a 128-bit number whose upper 48 bits are a time in milliseconds and whose
lower 80 bits are random, together with the kind of thing it names. Identifiers of one kind are
ordered by their number, which is the order of creation.
-/

namespace Muster

/-- The number of identifiers of one kind, which have 128 bits. -/
abbrev Ulid.count : Nat := 0x100000000000000000000000000000000

/-- The number of times, which have 48 bits. -/
abbrev Ulid.timeCount : Nat := 0x1000000000000

/-- The number of random parts, which have 80 bits. -/
abbrev Ulid.randomCount : Nat := 0x100000000000000000000

/-- A 128-bit number: 48 bits of time, then 80 random bits. -/
structure Ulid where
  val : Nat
  val_lt : val < Ulid.count
deriving DecidableEq

namespace Ulid

/-- The lowest 128 bits of a number. -/
def ofNat (n : Nat) : Ulid := ⟨n % count, Nat.mod_lt _ (by decide)⟩

/-- A time and a random part, each cut to its field. -/
def ofParts (milliseconds random : Nat) : Ulid :=
  ofNat (milliseconds % timeCount * randomCount + random % randomCount)

/-- Milliseconds since 1970. -/
def milliseconds (u : Ulid) : Nat := u.val / randomCount

/-- The random part. -/
def random (u : Ulid) : Nat := u.val % randomCount

instance : Inhabited Ulid := ⟨ofNat 0⟩

theorem ext_val {a b : Ulid} (h : a.val = b.val) : a = b := by
  cases a
  cases b
  simpa using h

end Ulid

/-- What an identifier can name. -/
inductive IdKind where
  | workItem
  | provider
  | planned
  | review
deriving DecidableEq, Repr

/-- The text in front of the separator. -/
def IdKind.tag : IdKind → String
  | workItem => "wi"
  | provider => "prov"
  | planned => "pcap"
  | review => "rev"

/-- An identifier of one kind. -/
structure Id (kind : IdKind) where
  ulid : Ulid
deriving DecidableEq, Inhabited

abbrev WorkItemId := Id .workItem
abbrev ProviderId := Id .provider
abbrev PlannedId := Id .planned
abbrev ReviewId := Id .review

namespace Id

variable {k : IdKind}

/-- The identifier with the lowest 128 bits of a number. -/
def ofNat (n : Nat) : Id k := ⟨Ulid.ofNat n⟩

/-- The `n`-th identifier that a host makes itself; they lie in the upper half of all. -/
def fresh (n : Nat) : Id k := ofNat (Ulid.count / 2 + n)

/-- The number of an identifier. -/
def toNat (i : Id k) : Nat := i.ulid.val

theorem ext_toNat {a b : Id k} (h : a.toNat = b.toNat) : a = b := by
  cases a
  cases b
  exact congrArg Id.mk (Ulid.ext_val h)

instance : Ord (Id k) := ⟨fun a b => compare a.toNat b.toNat⟩

theorem compare_eq (a b : Id k) : compare a b = compare a.toNat b.toNat := rfl

instance : Std.TransOrd (Id k) where
  eq_swap {a b} := @Std.OrientedCmp.eq_swap Nat compare _ a.toNat b.toNat
  isLE_trans {a b c} := @Std.TransCmp.isLE_trans Nat compare _ a.toNat b.toNat c.toNat

instance : Std.LawfulEqOrd (Id k) where
  compare_self {a} := @Std.ReflCmp.compare_self Nat compare _ a.toNat
  eq_of_compare h := ext_toNat (@Std.LawfulEqOrd.eq_of_compare Nat _ _ _ _ h)

end Id

end Muster
