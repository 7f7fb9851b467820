import Chip8.Machine.Fault
import Chip8.Flags.Listing

/-!
# Failures

Everything that can stop a run, and how people are told. A program that ends,
and a user who leaves, are no failures.
-/

namespace Chip8

/-- What a device can answer instead of doing its work. -/
inductive DeviceError where
  | notFound
  | isDirectory
  /-- The bytes of a file are no text. -/
  | notText
  /-- Any other reason, in the device's own words. -/
  | broken (reason : String)
deriving DecidableEq, Repr

/-- Why a run, or loading a program, did not succeed. -/
inductive Failure where
  | fault (fault : Fault)
  | flags (error : ListingError)
  | device (error : DeviceError)
deriving DecidableEq, Repr

/-- The words for a fault. -/
def Fault.message : Fault → String
  | noProgram => "no ROM is loaded"
  | invalidOpcode opcode => "invalid opcode 0x" ++ Text.hexadecimal opcode
  | stackOverflow =>
    "stack overflow: call with all " ++ stackSlots.repr ++ " stack slots in use"
  | stackUnderflow => "stack underflow: return with an empty call stack"

/-- The words for a text that holds no flag registers. -/
def ListingError.message : ListingError → String
  | malformed => "malformed flag registers: not a list of bytes"
  | tooMany count =>
    "malformed flag registers: " ++ count.repr ++ " values, at most 16 flag registers"

/-- The words for what a device answers. -/
def DeviceError.message : DeviceError → String
  | notFound => "NotFound"
  | isDirectory => "IsADirectory"
  | notText => "InvalidData"
  | broken reason => reason

/-- The words for a failure. -/
def Failure.message : Failure → String
  | .fault reason => reason.message
  | .flags reason => reason.message
  | .device reason => reason.message

end Chip8
