import I8086.Opcode
import I8086.Register

/-!
# The opcode map

`lookup` gives the entry of each of the 256 opcodes, and `Entry.resolve` settles a shared opcode by
the register field of the byte that follows it. Main statement: `form_lookup_eq_shared_iff`, exactly
the entries of shared opcodes are without an instruction of their own.
-/

namespace I8086

/-- A single-meaning entry. -/
def entry (name : String) (op : Mnemonic) (form : Form) : Entry :=
  .single ⟨name, op, form⟩

/-- The entry of an opcode without a meaning. -/
def undefinedEntry : Entry :=
  .single .unknown

/-- A row of the opcode map: the opcodes that differ in the low three bits. -/
abbrev Row := Vector Entry 8

/-- A row of one entry. -/
def uniformRow (e : Entry) : Row :=
  #v[e, e, e, e, e, e, e, e]

/-- A row of an arithmetic operation: four opcodes with a mod-r/m byte, two on the accumulator and
two of another kind. -/
def arithmeticRow (name : String) (op : Mnemonic) (seventh eighth : Entry) : Row :=
  let rm := entry name op .rmRegister
  let accumulator := entry name op .accumulatorImmediate
  #v[rm, rm, rm, rm, accumulator, accumulator, seventh, eighth]

/-- The entry of an opcode that pushes a segment register. -/
def pushSegment : Entry :=
  entry "push" .push .segmentRegister

/-- The entry of an opcode that pops a segment register. -/
def popSegment : Entry :=
  entry "pop" .pop .segmentRegister

/-- The entry of a segment override. -/
def overrideEntry : Entry :=
  entry "segment" .segment .segmentOverride

/-- The entries of all opcodes: 32 rows of eight. -/
def opcodeMap : Vector Row 32 := #v[
  arithmeticRow "add" .add pushSegment popSegment,
  arithmeticRow "or" .or pushSegment undefinedEntry,
  arithmeticRow "adc" .adc pushSegment popSegment,
  arithmeticRow "sbb" .sbb pushSegment popSegment,
  arithmeticRow "and" .and overrideEntry (entry "daa" .daa .bare),
  arithmeticRow "sub" .sub overrideEntry (entry "das" .das .bare),
  arithmeticRow "xor" .xor overrideEntry (entry "aaa" .aaa .bare),
  arithmeticRow "cmp" .cmp overrideEntry (entry "aas" .aas .bare),
  uniformRow (entry "inc" .inc .register),
  uniformRow (entry "dec" .dec .register),
  uniformRow (entry "push" .push .register),
  uniformRow (entry "pop" .pop .register),
  uniformRow undefinedEntry,
  uniformRow undefinedEntry,
  #v[entry "jo" .jo .shortTarget, entry "jno" .jno .shortTarget,
     entry "jb" .jb .shortTarget, entry "jnb" .jnb .shortTarget,
     entry "je" .je .shortTarget, entry "jne" .jne .shortTarget,
     entry "jbe" .jbe .shortTarget, entry "ja" .ja .shortTarget],
  #v[entry "js" .js .shortTarget, entry "jns" .jns .shortTarget,
     entry "jp" .jp .shortTarget, entry "jnp" .jnp .shortTarget,
     entry "jl" .jl .shortTarget, entry "jnl" .jnl .shortTarget,
     entry "jle" .jle .shortTarget, entry "jg" .jg .shortTarget],
  #v[.shared .immediate, .shared .immediate, .shared .immediate, .shared .signedByte,
     entry "test" .test .rmRegister, entry "test" .test .rmRegister,
     entry "xchg" .xchg .rmRegister, entry "xchg" .xchg .rmRegister],
  #v[entry "mov" .mov .rmRegister, entry "mov" .mov .rmRegister,
     entry "mov" .mov .rmRegister, entry "mov" .mov .rmRegister,
     entry "mov" .mov .rmSegment, entry "lea" .lea .registerMemory,
     entry "mov" .mov .rmSegment, entry "pop" .pop .rm],
  #v[entry "nop" .nop .bare, entry "xchg" .xchg .accumulatorRegister,
     entry "xchg" .xchg .accumulatorRegister, entry "xchg" .xchg .accumulatorRegister,
     entry "xchg" .xchg .accumulatorRegister, entry "xchg" .xchg .accumulatorRegister,
     entry "xchg" .xchg .accumulatorRegister, entry "xchg" .xchg .accumulatorRegister],
  #v[entry "cbw" .cbw .bare, entry "cwd" .cwd .bare,
     entry "call" .call .farTarget, entry "wait" .wait .bare,
     entry "pushf" .pushf .bare, entry "popf" .popf .bare,
     entry "sahf" .sahf .bare, entry "lahf" .lahf .bare],
  #v[entry "mov" .mov .accumulatorMemory, entry "mov" .mov .accumulatorMemory,
     entry "mov" .mov .memoryAccumulator, entry "mov" .mov .memoryAccumulator,
     entry "movs" .movs .string, entry "movs" .movs .string,
     entry "cmps" .cmps .string, entry "cmps" .cmps .string],
  #v[entry "test" .test .accumulatorImmediate, entry "test" .test .accumulatorImmediate,
     entry "stos" .stos .string, entry "stos" .stos .string,
     entry "lods" .lods .string, entry "lods" .lods .string,
     entry "scas" .scas .string, entry "scas" .scas .string],
  uniformRow (entry "mov" .mov .registerImmediate),
  uniformRow (entry "mov" .mov .registerImmediate),
  #v[undefinedEntry, undefinedEntry,
     entry "ret" .ret .wordImmediate, entry "ret" .ret .bare,
     entry "les" .les .registerMemory, entry "lds" .lds .registerMemory,
     entry "mov" .mov .rmImmediate, entry "mov" .mov .rmImmediate],
  #v[undefinedEntry, undefinedEntry,
     entry "retf" .retf .wordImmediate, entry "retf" .retf .bare,
     entry "int3" .int3 .bare, entry "int" .int .byteImmediate,
     entry "into" .into .bare, entry "iret" .iret .bare],
  #v[.shared .shiftOne, .shared .shiftOne, .shared .shiftCount, .shared .shiftCount,
     entry "aam" .aam .padded, entry "aad" .aad .padded,
     undefinedEntry, entry "xlat" .xlat .bare],
  uniformRow (entry "esc" .esc .escape),
  #v[entry "loopnz" .loopnz .shortTarget, entry "loopz" .loopz .shortTarget,
     entry "loop" .loop .shortTarget, entry "jcxz" .jcxz .shortTarget,
     entry "in" .input .fixedPort, entry "in" .input .fixedPort,
     entry "out" .output .fixedPort, entry "out" .output .fixedPort],
  #v[entry "call" .call .nearTarget, entry "jmp" .jmp .nearTarget,
     entry "jmp" .jmp .farTarget, entry "jmp" .jmp .shortTarget,
     entry "in" .input .variablePort, entry "in" .input .variablePort,
     entry "out" .output .variablePort, entry "out" .output .variablePort],
  #v[entry "lock" .lock .bare, undefinedEntry,
     entry "repne" .rep .bare, entry "rep" .rep .bare,
     entry "hlt" .hlt .bare, entry "cmc" .cmc .bare,
     .shared .unary, .shared .unary],
  #v[entry "clc" .clc .bare, entry "stc" .stc .bare,
     entry "cli" .cli .bare, entry "sti" .sti .bare,
     entry "cld" .cld .bare, entry "std" .std .bare,
     .shared .step, .shared .indirect]]

/-- The entry of an opcode. -/
def lookup (opcode : UInt8) : Entry :=
  have := opcode.toNat_lt
  opcodeMap[opcode.toNat / 8][opcode.toNat % 8]

/-- A group of arithmetic operations with an immediate, for one form of immediate. -/
def arithmeticMembers (form : Form) : Vector Descriptor 8 :=
  #v[⟨"add", .add, form⟩, ⟨"or", .or, form⟩, ⟨"adc", .adc, form⟩, ⟨"sbb", .sbb, form⟩,
     ⟨"and", .and, form⟩, ⟨"sub", .sub, form⟩, ⟨"xor", .xor, form⟩, ⟨"cmp", .cmp, form⟩]

/-- A group of shifts and rotations, for one form of count. -/
def shiftMembers (form : Form) : Vector Descriptor 8 :=
  #v[⟨"rol", .rol, form⟩, ⟨"ror", .ror, form⟩, ⟨"rcl", .rcl, form⟩, ⟨"rcr", .rcr, form⟩,
     ⟨"shl", .shl, form⟩, ⟨"shr", .shr, form⟩, .unknown, ⟨"sar", .sar, form⟩]

/-- The eight members of a group in field order. -/
def OpcodeGroup.members : OpcodeGroup → Vector Descriptor 8
  | .immediate => arithmeticMembers .rmImmediate
  | .signedByte => arithmeticMembers .rmSignedByte
  | .shiftOne => shiftMembers .rmOne
  | .shiftCount => shiftMembers .rmCount
  | .unary =>
    #v[⟨"test", .test, .rmImmediate⟩, .unknown, ⟨"not", .not, .rm⟩, ⟨"neg", .neg, .rm⟩,
       ⟨"mul", .mul, .rm⟩, ⟨"imul", .imul, .rm⟩, ⟨"div", .div, .rm⟩, ⟨"idiv", .idiv, .rm⟩]
  | .step =>
    #v[⟨"inc", .inc, .rm⟩, ⟨"dec", .dec, .rm⟩, .unknown, .unknown,
       .unknown, .unknown, .unknown, .unknown]
  | .indirect =>
    #v[⟨"inc", .inc, .rm⟩, ⟨"dec", .dec, .rm⟩, ⟨"call", .call, .rm⟩, ⟨"call", .call, .rmFar⟩,
       ⟨"jmp", .jmp, .rm⟩, ⟨"jmp", .jmp, .rmFar⟩, ⟨"push", .push, .rm⟩, .unknown]

/-- The register field of a mod-r/m byte, bits 3 to 5. -/
def registerField (b : UInt8) : Fin 8 :=
  lowBits3 (b.toNat / 8)

/-- The descriptor of an opcode, given the byte that follows it. -/
def Entry.resolve (e : Entry) (second : UInt8) : Descriptor :=
  match e with
  | .single d => d
  | .shared g => g.members.get (registerField second)

/-- The segment field of an opcode, bits 3 and 4. -/
def segmentField (opcode : UInt8) : Fin 4 :=
  lowBits2 (opcode.toNat / 8)

/-- The segment register that a byte overrides the default with, if it is an override. -/
def override? (b : UInt8) : Option SegmentRegister :=
  if (lookup b).descriptor.form = .segmentOverride then some (.ofField (segmentField b)) else none

/-- A property of all 256 bytes, checked one by one. -/
theorem forall_byte {p : UInt8 → Prop} (h : ∀ i : Fin 256, p (UInt8.ofFin i)) (b : UInt8) : p b :=
  h b.toFin

/-- Exactly the shared opcodes are without an instruction of their own. -/
theorem form_lookup_eq_shared_iff (b : UInt8) :
    (lookup b).descriptor.form = .shared ↔ (lookup b).group?.isSome := by
  revert b
  exact forall_byte (by decide +kernel)

/-- The overrides are the four bytes that name a segment register in bits 3 and 4. -/
theorem override?_eq (b : UInt8) :
    override? b =
      if b = 0x26 then some .es else if b = 0x2E then some .cs
      else if b = 0x36 then some .ss else if b = 0x3E then some .ds else none := by
  revert b
  exact forall_byte (by decide +kernel)

end I8086
