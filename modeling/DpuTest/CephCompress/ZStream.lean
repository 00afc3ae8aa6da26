import Mathlib.Data.List.Basic
import Mathlib.Data.UInt

/-!
# The stream functions of zlib

zlib is not part of the repository.  `ZStreams` are its functions as a program
sees them: a call of `deflate` or `inflate` takes some of the input, puts some
output into the space it is given, and changes the state of the stream.

The laws are what the manual of zlib promises of one call, for a program that
keeps to the protocol.  `Fed` and `Finishing` are the histories of a `deflate`
stream before and after the first `Z_FINISH`; `Inflating` is the history of an
`inflate` stream that has been given a part of a zlib stream.  That `w` is a
zlib stream of `x` is an arbitrary relation `IsStream x w`.
-/

namespace DpuTest.CephCompress

/-- The return codes that the programs tell apart. -/
inductive ZRet where
  /-- `Z_OK` -/
  | ok
  /-- `Z_STREAM_END` -/
  | streamEnd
  /-- `Z_NEED_DICT` -/
  | needDict
  /-- `Z_DATA_ERROR` -/
  | dataError
  /-- `Z_MEM_ERROR` -/
  | memError
  /-- `Z_BUF_ERROR` -/
  | bufError
  deriving DecidableEq

inductive Flush where
  /-- `Z_NO_FLUSH` -/
  | noFlush
  /-- `Z_FINISH` -/
  | finish
  deriving DecidableEq

/-- What a call leaves: the new state, how much of the input it has taken, and
what it has put out. -/
structure StreamCall (State : Type) where
  ret : ZRet
  state : State
  consumed : Nat
  output : List UInt8

/-- The functions, with the input and the space for the output as arguments.
`uncompress` is `none` when it does not return `Z_OK`. -/
structure ZStreams where
  DeflateState : Type
  deflateInit : Int → DeflateState
  deflate : DeflateState → Flush → List UInt8 → Nat → StreamCall DeflateState
  InflateState : Type
  inflateInit : InflateState
  inflate : InflateState → List UInt8 → Nat → StreamCall InflateState
  uncompress : Nat → List UInt8 → Option (List UInt8)

variable (z : ZStreams)

/-! ## Compression -/

/-- The stream has taken `x` and put out `y`, and there is more to come. -/
inductive Fed : z.DeflateState → List UInt8 → List UInt8 → Prop where
  | init (level : Int) : Fed (z.deflateInit level) [] []
  | call {s : z.DeflateState} {x y input : List UInt8} {space : Nat} (h : Fed s x y)
    (hspace : 0 < space) :
    Fed (z.deflate s .noFlush input space).state
      (x ++ input.take (z.deflate s .noFlush input space).consumed)
      (y ++ (z.deflate s .noFlush input space).output)

/-- The stream is to end after `x`, of which `rest` has not been taken; it has
put out `y`. -/
inductive Finishing : z.DeflateState → List UInt8 → List UInt8 → List UInt8 → Prop where
  | first {s : z.DeflateState} {x y input : List UInt8} {space : Nat} (h : Fed z s x y)
    (hspace : 0 < space) :
    Finishing (z.deflate s .finish input space).state (x ++ input)
      (input.drop (z.deflate s .finish input space).consumed)
      (y ++ (z.deflate s .finish input space).output)
  | again {s : z.DeflateState} {x rest y : List UInt8} {space : Nat} (h : Finishing s x rest y)
    (hspace : 0 < space) :
    Finishing (z.deflate s .finish rest space).state x
      (rest.drop (z.deflate s .finish rest space).consumed)
      (y ++ (z.deflate s .finish rest space).output)

/-- `deflate` stays within its space.  When it leaves some of it, it has taken
all of the input, and with `Z_FINISH` it has put out the whole stream. -/
structure DeflateLaws (IsStream : List UInt8 → List UInt8 → Prop) : Prop where
  output_le : ∀ (s : z.DeflateState) (flush : Flush) (input : List UInt8) (space : Nat),
    (z.deflate s flush input space).output.length ≤ space
  takes_input : ∀ {s : z.DeflateState} {x y : List UInt8} (input : List UInt8) {space : Nat},
    Fed z s x y → (z.deflate s .noFlush input space).output.length < space →
      input.length ≤ (z.deflate s .noFlush input space).consumed
  finish_first : ∀ {s : z.DeflateState} {x y : List UInt8} (input : List UInt8) {space : Nat},
    Fed z s x y → (z.deflate s .finish input space).output.length < space →
      IsStream (x ++ input) (y ++ (z.deflate s .finish input space).output)
  finish_again : ∀ {s : z.DeflateState} {x rest y : List UInt8} {space : Nat},
    Finishing z s x rest y → (z.deflate s .finish rest space).output.length < space →
      IsStream x (y ++ (z.deflate s .finish rest space).output)

/-! ## Decompression -/

/-- The stream has taken `c` and put out `y`, and was only given parts of `w`. -/
inductive Inflating (w : List UInt8) : z.InflateState → List UInt8 → List UInt8 → Prop where
  | init : Inflating w z.inflateInit [] []
  | call {s : z.InflateState} {c y input : List UInt8} {space : Nat} (h : Inflating w s c y)
    (hinput : c ++ input <+: w) (hspace : 0 < space) :
    Inflating w (z.inflate s input space).state
      (c ++ input.take (z.inflate s input space).consumed)
      (y ++ (z.inflate s input space).output)

/-- A call of `inflate` on a part `input` of a stream `w` of `x`, after `c` has
been taken and `y` put out.  It does not fail; what comes out is `x`; it stops
when the input or the space is used up; and it reports the end of the stream
when all has been taken and put out. -/
structure InflateCall {State : Type} (x w c y input : List UInt8) (space : Nat)
    (r : StreamCall State) : Prop where
  ret_eq : r.ret = .ok ∨ r.ret = .bufError ∨ r.ret = .streamEnd
  output_le : r.output.length ≤ space
  output_prefix : y ++ r.output <+: x
  takes_input : r.output.length < space → input.length ≤ r.consumed
  ended : r.ret = .streamEnd → c ++ input.take r.consumed = w ∧ y ++ r.output = x
  ends : r.output.length < space → c ++ input = w → r.ret = .streamEnd

/-- `inflate` and `uncompress` undo `IsStream`.  A stream has a header. -/
structure InflateLaws (IsStream : List UInt8 → List UInt8 → Prop) : Prop where
  stream_ne_nil : ∀ {x w : List UInt8}, IsStream x w → w ≠ []
  inflate_call : ∀ {x w : List UInt8} {s : z.InflateState} {c y input : List UInt8} {space : Nat},
    IsStream x w → Inflating z w s c y → c ++ input <+: w → 0 < space →
      InflateCall x w c y input space (z.inflate s input space)
  uncompress_eq : ∀ {x w : List UInt8} (space : Nat), IsStream x w →
    z.uncompress space w = if x.length ≤ space then some x else none

end DpuTest.CephCompress
