import LibCosmos.Foundation.Command
import Mathlib.Algebra.Order.Ring.Int

/-
  Basic types that the modelled parts of the library share:
  byte strings, file descriptor numbers, errno values, the
  exception classes and the ways a process can end.

  Main declarations:
    * `Cosmos.Str`, `Cosmos.FileNum`, `Cosmos.Errno`
    * `Cosmos.Exn`, `Cosmos.Halt`
    * `Cosmos.Method`
-/

namespace Cosmos

------------------------------------------------------------
-- Strings and Numbers
------------------------------------------------------------

/- A `char`; only its bit pattern matters. -/
abbrev Byte := UInt8

/- A `std::string` or `std::string_view`. -/
abbrev Str := List Byte

/- The bytes of a string literal of the source. -/
def str (literal : String) : Str :=
  literal.toList.map fun c => UInt8.ofNat c.toNat

/- Primitive file descriptor, an `enum class : int`. -/
structure FileNum where
  raw : Int32
deriving DecidableEq, Repr

namespace FileNum

def invalid : FileNum := ⟨-1⟩
def stdin : FileNum := ⟨0⟩
def stdout : FileNum := ⟨1⟩
def stderr : FileNum := ⟨2⟩

end FileNum

/-
  Strong type for errno constants, an `enum class : int`.
  Only the constants that the modelled code names are here.
-/
structure Errno where
  raw : Int32
deriving DecidableEq, Repr

namespace Errno

def noError : Errno := ⟨0⟩
def noEntry : Errno := ⟨2⟩
def interrupted : Errno := ⟨4⟩
def notExecutable : Errno := ⟨8⟩
def badFd : Errno := ⟨9⟩
def noChild : Errno := ⟨10⟩
def again : Errno := ⟨11⟩
def access : Errno := ⟨13⟩
def busy : Errno := ⟨16⟩
def alreadyExists : Errno := ⟨17⟩
def notADir : Errno := ⟨20⟩
def isADir : Errno := ⟨21⟩
def invalidArg : Errno := ⟨22⟩
def readOnlyFs : Errno := ⟨30⟩
def brokenPipe : Errno := ⟨32⟩
def range : Errno := ⟨34⟩
def nameTooLong : Errno := ⟨36⟩
def notEmpty : Errno := ⟨39⟩
def linkLoop : Errno := ⟨40⟩
def timedOut : Errno := ⟨110⟩
def already : Errno := ⟨114⟩
def inProgress : Errno := ⟨115⟩

end Errno

/- Exit status of a process. -/
structure ExitStatus where
  raw : Int32
deriving DecidableEq, Repr

namespace ExitStatus

def success : ExitStatus := ⟨0⟩
def preExecError : ExitStatus := ⟨125⟩
def progNotExecutable : ExitStatus := ⟨126⟩
def progNotFound : ExitStatus := ⟨127⟩

end ExitStatus

------------------------------------------------------------
-- Exceptions and Ends of the Process
------------------------------------------------------------

/-
  A thrown object. `apiError` covers the subclasses
  `FileError` and `WouldBlock`, which only add to the text.
  Source location and errno label, which `what()` puts
  around the message, are left out.
-/
inductive Exn where
| apiError (errnum : Errno) (msg : Str)
| runtimeError (msg : Str)
| usageError (msg : Str)
| stdException (text : Str)
| nonStd
deriving DecidableEq, Repr

namespace Exn

/- Caught by `catch (const std::exception &)`. -/
def isStd : Exn → Bool
| .nonStd => false
| _ => true

end Exn

/-
  How a process ends: `proc::exit`, a successful `execve`,
  an exception that leaves a `noexcept` function, or
  `fatal_error`.
-/
inductive Halt where
| exit (status : ExitStatus)
| exec
| terminate
| fatalError (msg : Str)
deriving DecidableEq, Repr

/- A member function of an object of class `T`. -/
abbrev Method (T α : Type) : Type :=
  Command T Halt Exn α

end Cosmos
