/-!
# Broken invariants

Generation and look-up check their own rules while they run: a color channel stays below 32, a
table has the size its index rule promises, and an index lies inside its table. A check that fails
is a value of `InvariantError`, so that "no check ever fails" can be stated.

## Main Definitions

* `Channel` — the three channels of a color
* `InvariantError` — what a failed check found
-/

namespace PixelTables

/-- A channel of a color. -/
inductive Channel where
  | red
  | green
  | blue
  deriving DecidableEq, Repr

/-- The word for a channel in messages. -/
def Channel.name : Channel → String
  | .red => "red"
  | .green => "green"
  | .blue => "blue"

/-- A rule of generation or look-up that was found broken. -/
inductive InvariantError where
  /-- A five-bit channel held 32 or more. -/
  | channelOutOfRange (channel : Channel) (value : UInt8)
  /-- A table under construction did not have the size its index rule promises. -/
  | sizeMismatch (found expected : Nat)
  /-- A look-up went past the end of a table. -/
  | indexOutOfBounds (index size : Nat)
  deriving DecidableEq, Repr

/-- The wording of a broken rule. -/
def InvariantError.message : InvariantError → String
  | .channelOutOfRange channel value =>
    channel.name ++ " channel out of range: " ++ Nat.repr value.toNat
  | .sizeMismatch found expected =>
    "assertion `left == right` failed\n  left: " ++ Nat.repr found
      ++ "\n right: " ++ Nat.repr expected
  | .indexOutOfBounds index size =>
    "index out of bounds: the len is " ++ Nat.repr size ++ " but the index is " ++ Nat.repr index

end PixelTables
