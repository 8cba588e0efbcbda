import MarvellW8897.Libc.Strtoull

/-!
# The command line of `marvell_probe`

`parseU32` and `parseOptions`. `std::exit` and the diagnostic about an unaligned offset are results
here; `main` acts on them.
-/

namespace MarvellW8897

namespace Probe

open Libc

/-- A NUL-terminated string: its characters before the NUL. -/
structure CString where
  chars : List UInt8
  noNul : 0 ∉ chars
deriving DecidableEq, Repr

def shortHelp : CString := ⟨['-', 'h'].map ascii, by decide⟩

def longHelp : CString := ⟨['-', '-', 'h', 'e', 'l', 'p'].map ascii, by decide⟩

def readBarRegOption : CString :=
  ⟨['-', '-', 'r', 'e', 'a', 'd', '-', 'b', 'a', 'r', '-', 'r', 'e', 'g'].map ascii, by decide⟩

/-- `parseU32`: whether it succeeds, and `valueOut` afterwards. -/
def parseU32 (text : Option CString) (valueOut : UInt32) : Bool × UInt32 :=
  match text with
  | none => (false, valueOut)
  | some text =>
    if text.chars = [] then (false, valueOut)
    else
      let parsed := strtoull text.chars
      if parsed.erange || parsed.rest != [] || parsed.value > 0xffffffff then (false, valueOut)
      else (true, parsed.value.toUInt32)

structure ProbeOptions where
  readBarReg : Bool := false
  readBar : UInt32 := 0
  readOffset : UInt32 := 0
deriving DecidableEq, Repr

/-- How `parseOptions` ends. -/
inductive Parsed where
  | accepted (options : ProbeOptions)
  /-- It returns false; `refused` is an offset it complained about. -/
  | rejected (refused : Option UInt32)
  /-- It prints the usage and exits with 0. -/
  | help
  /-- It reads `argv` at or past `argc`. -/
  | pastEnd
deriving DecidableEq, Repr

/--
The loop of `parseOptions`, at an index from which on the arguments are `args`. The next two are
`rest[0]` and `rest[1]`, and `(i + 2) >= argc` says that there are fewer than two.
-/
def parseArguments (options : ProbeOptions) : List CString → Parsed
  | [] => .accepted options
  | arg :: rest =>
    if arg = shortHelp ∨ arg = longHelp then .help
    else if arg = readBarRegOption then
      if options.readBarReg || rest.length < 2 then .rejected none
      else
        match rest with
        | barText :: offsetText :: rest =>
          let (barOk, bar) := parseU32 (some barText) 0
          let (offsetOk, offset) := parseU32 (some offsetText) 0
          if !barOk || !offsetOk then .rejected none
          else if (offset &&& 0x3) != 0 then .rejected (some offset)
          else
            parseArguments { options with
              readBarReg := true
              readBar := bar
              readOffset := offset } rest
        | _ => .pastEnd
    else .rejected none

/-- `parseOptions`; `argv[0]` is the name of the program. -/
def parseOptions (argv : List CString) : Parsed := parseArguments {} (argv.drop 1)

/--
The loop of `parseOptions` as the source writes it, at index `i`; `argc` is the length of `argv`.
Every read of `argv` that finds no argument ends in `pastEnd`.
-/
def parseFrom (argv : List CString) (i : Nat) (options : ProbeOptions) : Parsed :=
  if i < argv.length then
    match argv[i]? with
    | none => .pastEnd
    | some arg =>
      if arg = shortHelp ∨ arg = longHelp then .help
      else if arg = readBarRegOption then
        if options.readBarReg || i + 2 ≥ argv.length then .rejected none
        else
          match argv[i + 1]?, argv[i + 2]? with
          | some barText, some offsetText =>
            let (barOk, bar) := parseU32 (some barText) 0
            let (offsetOk, offset) := parseU32 (some offsetText) 0
            if !barOk || !offsetOk then .rejected none
            else if (offset &&& 0x3) != 0 then .rejected (some offset)
            else
              -- `i += 2`, and the `++i` of the loop
              parseFrom argv (i + 3) { options with
                readBarReg := true
                readBar := bar
                readOffset := offset }
          | _, _ => .pastEnd
      else .rejected none
  else .accepted options
termination_by argv.length - i

end Probe

end MarvellW8897
