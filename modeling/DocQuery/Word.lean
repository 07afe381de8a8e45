/-!
# Bounds of machine words

The least and greatest integers of the widths that occur on the wire and in settings.
-/

namespace DocQuery.Word

/-- The least signed integer of thirty-two bits. -/
def leastInt32 : Int := -0x80000000

/-- The greatest signed integer of thirty-two bits. -/
def greatestInt32 : Nat := 0x7FFFFFFF

/-- The least signed integer of sixty-four bits. -/
def leastInt64 : Int := -0x8000000000000000

/-- The greatest signed integer of sixty-four bits. -/
def greatestInt64 : Nat := 0x7FFFFFFFFFFFFFFF

/-- The greatest unsigned integer of sixty-four bits. -/
def greatestNat64 : Nat := 0xFFFFFFFFFFFFFFFF

end DocQuery.Word
