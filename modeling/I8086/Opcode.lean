/-!
# Operations and encoding forms

The vocabulary of the opcode map: what an instruction does (`Mnemonic`), how its bytes are laid out
(`Form`), which opcodes share one byte (`OpcodeGroup`), and the entry that the map holds for an
opcode (`Entry`). An entry is an instruction, or a group whose member the next byte selects.
-/

namespace I8086

/-- What an instruction does, whatever its encoding. `segment`, `lock` and `rep` stand for the
bytes that only modify the next instruction, `group` for an opcode that several operations share and
`unknown` for one that has none. -/
inductive Mnemonic where
  | unknown | add | or | adc | sbb | and | sub | xor | cmp | inc | dec | not | neg | mul | imul
  | div | idiv | daa | das | aaa | aas | aam | aad | cbw | cwd | rol | ror | rcl | rcr | shl
  | shr | sar | test | mov | xchg | lea | lds | les | push | pop | pushf | popf | sahf | lahf
  | xlat | input | output | movs | cmps | scas | lods | stos | jo | jno | jb | jnb | je | jne
  | jbe | ja | js | jns | jp | jnp | jl | jnl | jle | jg | loopnz | loopz | loop | jcxz | jmp
  | call | ret | retf | int | int3 | into | iret | clc | stc | cmc | cli | sti | cld | std | hlt
  | wait | esc | nop | lock | rep | segment | group
  deriving DecidableEq, Inhabited

namespace Mnemonic

/-- Every operation. -/
def all : List Mnemonic :=
  [.unknown, .add, .or, .adc, .sbb, .and, .sub, .xor, .cmp, .inc, .dec, .not, .neg, .mul,
   .imul, .div, .idiv, .daa, .das, .aaa, .aas, .aam, .aad, .cbw, .cwd, .rol, .ror, .rcl, .rcr,
   .shl, .shr, .sar, .test, .mov, .xchg, .lea, .lds, .les, .push, .pop, .pushf, .popf, .sahf,
   .lahf, .xlat, .input, .output, .movs, .cmps, .scas, .lods, .stos, .jo, .jno, .jb, .jnb, .je,
   .jne, .jbe, .ja, .js, .jns, .jp, .jnp, .jl, .jnl, .jle, .jg, .loopnz, .loopz, .loop, .jcxz,
   .jmp, .call, .ret, .retf, .int, .int3, .into, .iret, .clc, .stc, .cmc, .cli, .sti, .cld,
   .std, .hlt, .wait, .esc, .nop, .lock, .rep, .segment, .group]

/-- The identifier in saved data. -/
def id : Mnemonic → String
  | .unknown => "Unknown"
  | .add => "Add"
  | .or => "Or"
  | .adc => "Adc"
  | .sbb => "Sbb"
  | .and => "And"
  | .sub => "Sub"
  | .xor => "Xor"
  | .cmp => "Cmp"
  | .inc => "Inc"
  | .dec => "Dec"
  | .not => "Not"
  | .neg => "Neg"
  | .mul => "Mul"
  | .imul => "Imul"
  | .div => "Div"
  | .idiv => "Idiv"
  | .daa => "Daa"
  | .das => "Das"
  | .aaa => "Aaa"
  | .aas => "Aas"
  | .aam => "Aam"
  | .aad => "Aad"
  | .cbw => "Cbw"
  | .cwd => "Cwd"
  | .rol => "Rol"
  | .ror => "Ror"
  | .rcl => "Rcl"
  | .rcr => "Rcr"
  | .shl => "Shl"
  | .shr => "Shr"
  | .sar => "Sar"
  | .test => "Test"
  | .mov => "Mov"
  | .xchg => "Xchg"
  | .lea => "Lea"
  | .lds => "Lds"
  | .les => "Les"
  | .push => "Push"
  | .pop => "Pop"
  | .pushf => "Pushf"
  | .popf => "Popf"
  | .sahf => "Sahf"
  | .lahf => "Lahf"
  | .xlat => "Xlat"
  | .input => "In"
  | .output => "Out"
  | .movs => "Movs"
  | .cmps => "Cmps"
  | .scas => "Scas"
  | .lods => "Lods"
  | .stos => "Stos"
  | .jo => "Jo"
  | .jno => "Jno"
  | .jb => "Jb"
  | .jnb => "Jnb"
  | .je => "Je"
  | .jne => "Jne"
  | .jbe => "Jbe"
  | .ja => "Ja"
  | .js => "Js"
  | .jns => "Jns"
  | .jp => "Jp"
  | .jnp => "Jnp"
  | .jl => "Jl"
  | .jnl => "Jnl"
  | .jle => "Jle"
  | .jg => "Jg"
  | .loopnz => "Loopnz"
  | .loopz => "Loopz"
  | .loop => "Loop"
  | .jcxz => "Jcxz"
  | .jmp => "Jmp"
  | .call => "Call"
  | .ret => "Ret"
  | .retf => "Retf"
  | .int => "Int"
  | .int3 => "Int3"
  | .into => "Into"
  | .iret => "Iret"
  | .clc => "Clc"
  | .stc => "Stc"
  | .cmc => "Cmc"
  | .cli => "Cli"
  | .sti => "Sti"
  | .cld => "Cld"
  | .std => "Std"
  | .hlt => "Hlt"
  | .wait => "Wait"
  | .esc => "Esc"
  | .nop => "Nop"
  | .lock => "Lock"
  | .rep => "Rep"
  | .segment => "Segment"
  | .group => "Group"

/-- The operation with a given identifier. -/
def ofId? (s : String) : Option Mnemonic :=
  all.find? (·.id == s)

end Mnemonic

/-- How the bytes of an instruction are laid out. -/
inductive Form where
  /-- No instruction has this opcode. -/
  | unknown
  /-- The opcode is shared; the second byte selects the instruction. -/
  | shared
  /-- The opcode alone. -/
  | bare
  /-- A segment override for the next instruction. -/
  | segmentOverride
  /-- A string operation, its width in the opcode. -/
  | string
  /-- The opcode and one byte without meaning. -/
  | padded
  /-- A mod-r/m operand and a register, in the order the direction bit says. -/
  | rmRegister
  /-- A mod-r/m operand and an immediate of the operation width. -/
  | rmImmediate
  /-- A mod-r/m operand and an immediate that may be one sign-extended byte. -/
  | rmSignedByte
  /-- A register named in the opcode and an immediate. -/
  | registerImmediate
  /-- The accumulator and the memory word or byte at an address. -/
  | accumulatorMemory
  /-- The memory word or byte at an address and the accumulator. -/
  | memoryAccumulator
  /-- The accumulator and an immediate. -/
  | accumulatorImmediate
  /-- One mod-r/m operand. -/
  | rm
  /-- One mod-r/m operand that holds a far pointer. -/
  | rmFar
  /-- A word register and a mod-r/m operand. -/
  | registerMemory
  /-- A mod-r/m operand and the count one. -/
  | rmOne
  /-- A mod-r/m operand and a count in cl. -/
  | rmCount
  /-- A mod-r/m operand and a segment register, in the order the direction bit says. -/
  | rmSegment
  /-- A word register named in the opcode. -/
  | register
  /-- A segment register named in the opcode. -/
  | segmentRegister
  /-- The accumulator and a word register named in the opcode. -/
  | accumulatorRegister
  /-- A byte immediate. -/
  | byteImmediate
  /-- A word immediate. -/
  | wordImmediate
  /-- A word displacement to a near target. -/
  | nearTarget
  /-- The offset and the segment of a far target. -/
  | farTarget
  /-- A byte displacement to a short target. -/
  | shortTarget
  /-- The accumulator and a port number. -/
  | fixedPort
  /-- The accumulator and the port in dx. -/
  | variablePort
  /-- A coprocessor code and a mod-r/m operand. -/
  | escape
  deriving DecidableEq, Inhabited

namespace Form

/-- Every form. -/
def all : List Form :=
  [.unknown, .shared, .bare, .segmentOverride, .string, .padded, .rmRegister, .rmImmediate,
   .rmSignedByte, .registerImmediate, .accumulatorMemory, .memoryAccumulator,
   .accumulatorImmediate, .rm, .rmFar, .registerMemory, .rmOne, .rmCount, .rmSegment,
   .register, .segmentRegister, .accumulatorRegister, .byteImmediate, .wordImmediate,
   .nearTarget, .farTarget, .shortTarget, .fixedPort, .variablePort, .escape]

/-- The identifier in saved data and messages. -/
def id : Form → String
  | .unknown => "Unknown"
  | .shared => "Special"
  | .bare => "SingleByte"
  | .segmentOverride => "SegmentPrefix"
  | .string => "StringOp"
  | .padded => "SkipSecond"
  | .rmRegister => "RegMemReg"
  | .rmImmediate => "ImmRegMem"
  | .rmSignedByte => "ImmRegMemSignExtended"
  | .registerImmediate => "ImmReg"
  | .accumulatorMemory => "MemAcc"
  | .memoryAccumulator => "AccMem"
  | .accumulatorImmediate => "ImmAcc"
  | .rm => "RegMem"
  | .rmFar => "RegMemFar"
  | .registerMemory => "MemReg"
  | .rmOne => "RegMemOne"
  | .rmCount => "RegMemCl"
  | .rmSegment => "SegRegMem"
  | .register => "Reg"
  | .segmentRegister => "SegReg"
  | .accumulatorRegister => "RegAcc"
  | .byteImmediate => "Imm8"
  | .wordImmediate => "Imm16"
  | .nearTarget => "NearProc"
  | .farTarget => "FarProc"
  | .shortTarget => "Jump"
  | .fixedPort => "FixedPort"
  | .variablePort => "VariablePort"
  | .escape => "Esc"

/-- The form with a given identifier. -/
def ofId? (s : String) : Option Form :=
  all.find? (·.id == s)

end Form

/-- The operations that share an opcode. -/
inductive OpcodeGroup where
  /-- Arithmetic with an immediate of the operation width. -/
  | immediate
  /-- Arithmetic with a sign-extended byte. -/
  | signedByte
  /-- Shifts and rotations by one. -/
  | shiftOne
  /-- Shifts and rotations by the count in cl. -/
  | shiftCount
  /-- Arithmetic on one operand. -/
  | unary
  /-- Increment and decrement of a byte. -/
  | step
  /-- Increment, decrement, push and transfers through an operand. -/
  | indirect
  deriving DecidableEq, Inhabited

/-- The identifier in saved data. -/
def OpcodeGroup.id : OpcodeGroup → String
  | .immediate => "Immediate"
  | .signedByte => "ImmediateSignExtended"
  | .shiftOne => "ShiftOne"
  | .shiftCount => "ShiftCl"
  | .unary => "Unary"
  | .step => "IncDec"
  | .indirect => "Indirect"

/-- The name, operation and form of an instruction. -/
structure Descriptor where
  /-- The name in assembly text. -/
  name : String
  /-- What the instruction does. -/
  op : Mnemonic
  /-- How its bytes are laid out. -/
  form : Form
  deriving DecidableEq, Inhabited

/-- The descriptor of bytes that encode no instruction. -/
def Descriptor.unknown : Descriptor :=
  ⟨"(unknown)", .unknown, .unknown⟩

/-- What the opcode map holds for an opcode. -/
inductive Entry where
  /-- The opcode has one meaning. -/
  | single (descriptor : Descriptor)
  /-- The opcode has the meanings of a group. -/
  | shared (group : OpcodeGroup)
  deriving DecidableEq, Inhabited

namespace Entry

/-- The descriptor of an entry; a shared opcode has a nameless one. -/
def descriptor : Entry → Descriptor
  | .single d => d
  | .shared _ => ⟨"", .group, .shared⟩

/-- The group of a shared opcode. -/
def group? : Entry → Option OpcodeGroup
  | .single _ => none
  | .shared g => some g

end Entry

end I8086
