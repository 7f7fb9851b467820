/-!
# Numbers below a bound

Registers, keys and the words of a random block are counted from zero to fifteen,
and an opcode holds addresses of twelve bits. A numeral of such a type wraps around
at its bound, which must not be zero. That is said here once for all of them.
-/

namespace Chip8

instance sixteenNeZero : @NeZero Nat Zero.ofOfNat0 16 := ⟨by decide⟩

instance addressesNeZero : @NeZero Nat Zero.ofOfNat0 4096 := ⟨by decide⟩

end Chip8
