import FormatGraph.Spelled

/-! The words that nodes carry: operators, uses of identifiers, byte and bit orders, and the like.
The first word of each set is the one of a node that does not say. -/

namespace FormatGraph

inductive UnaryOp where
  | not | minus
  deriving DecidableEq, Repr

instance : Spelled UnaryOp where
  all := [.not, .minus]
  spell
    | .not => "!"
    | .minus => "-"

inductive BinaryOp where
  | mul | div | mod | leftArithmeticShift | rightArithmeticShift | leftLogicalShift
  | rightLogicalShift | bitAnd | add | sub | bitOr | bitXor | equal | notEqual | less | lessOrEq
  | greater | greaterOrEq | logicalAnd | logicalOr | condThen | condElse | rangeExclusive
  | rangeInclusive | assign | defineAssign | constAssign | addAssign | subAssign | mulAssign
  | divAssign | modAssign | leftLogicalShiftAssign | rightLogicalShiftAssign
  | leftArithmeticShiftAssign | rightArithmeticShiftAssign | bitAndAssign | bitOrAssign
  | bitXorAssign | comma | inAssign
  deriving DecidableEq, Repr

instance : Spelled BinaryOp where
  all := [
    .mul, .div, .mod, .leftArithmeticShift, .rightArithmeticShift, .leftLogicalShift,
    .rightLogicalShift, .bitAnd, .add, .sub, .bitOr, .bitXor, .equal, .notEqual, .less, .lessOrEq,
    .greater, .greaterOrEq, .logicalAnd, .logicalOr, .condThen, .condElse, .rangeExclusive,
    .rangeInclusive, .assign, .defineAssign, .constAssign, .addAssign, .subAssign, .mulAssign,
    .divAssign, .modAssign, .leftLogicalShiftAssign, .rightLogicalShiftAssign,
    .leftArithmeticShiftAssign, .rightArithmeticShiftAssign, .bitAndAssign, .bitOrAssign,
    .bitXorAssign, .comma, .inAssign]
  spell
    | .mul => "*"
    | .div => "/"
    | .mod => "%"
    | .leftArithmeticShift => "<<<"
    | .rightArithmeticShift => ">>>"
    | .leftLogicalShift => "<<"
    | .rightLogicalShift => ">>"
    | .bitAnd => "&"
    | .add => "+"
    | .sub => "-"
    | .bitOr => "|"
    | .bitXor => "^"
    | .equal => "=="
    | .notEqual => "!="
    | .less => "<"
    | .lessOrEq => "<="
    | .greater => ">"
    | .greaterOrEq => ">="
    | .logicalAnd => "&&"
    | .logicalOr => "||"
    | .condThen => "?"
    | .condElse => ":"
    | .rangeExclusive => ".."
    | .rangeInclusive => "..="
    | .assign => "="
    | .defineAssign => ":="
    | .constAssign => "::="
    | .addAssign => "+="
    | .subAssign => "-="
    | .mulAssign => "*="
    | .divAssign => "/="
    | .modAssign => "%="
    | .leftLogicalShiftAssign => "<<="
    | .rightLogicalShiftAssign => ">>="
    | .leftArithmeticShiftAssign => "<<<="
    | .rightArithmeticShiftAssign => ">>>="
    | .bitAndAssign => "&="
    | .bitOrAssign => "|="
    | .bitXorAssign => "^="
    | .comma => ","
    | .inAssign => "in"

def BinaryOp.isAssign : BinaryOp → Bool
  | .assign | .defineAssign | .constAssign | .addAssign | .subAssign | .mulAssign | .divAssign
  | .modAssign | .leftLogicalShiftAssign | .rightLogicalShiftAssign | .leftArithmeticShiftAssign
  | .rightArithmeticShiftAssign | .bitAndAssign | .bitOrAssign | .bitXorAssign => true
  | _ => false

inductive IdentUsage where
  | unknown | badIdent | reference | defineVariable | defineConst | defineField | defineFormat
  | defineState | defineEnum | defineEnumMember | defineFn | defineCastFn | defineArg
  | referenceType | referenceMember | referenceMemberType | maybeType | referenceBuiltinFn
  deriving DecidableEq, Repr

instance : Spelled IdentUsage where
  all := [
    .unknown, .badIdent, .reference, .defineVariable, .defineConst, .defineField, .defineFormat,
    .defineState, .defineEnum, .defineEnumMember, .defineFn, .defineCastFn, .defineArg,
    .referenceType, .referenceMember, .referenceMemberType, .maybeType, .referenceBuiltinFn]
  spell
    | .unknown => "unknown"
    | .badIdent => "bad_ident"
    | .reference => "reference"
    | .defineVariable => "define_variable"
    | .defineConst => "define_const"
    | .defineField => "define_field"
    | .defineFormat => "define_format"
    | .defineState => "define_state"
    | .defineEnum => "define_enum"
    | .defineEnumMember => "define_enum_member"
    | .defineFn => "define_fn"
    | .defineCastFn => "define_cast_fn"
    | .defineArg => "define_arg"
    | .referenceType => "reference_type"
    | .referenceMember => "reference_member"
    | .referenceMemberType => "reference_member_type"
    | .maybeType => "maybe_type"
    | .referenceBuiltinFn => "reference_builtin_fn"

def IdentUsage.isDefinition : IdentUsage → Bool
  | .defineVariable | .defineConst | .defineField | .defineFormat | .defineState | .defineEnum
  | .defineEnumMember | .defineFn | .defineCastFn | .defineArg => true
  | _ => false

inductive Endian where
  | unspec | big | little
  deriving DecidableEq, Repr

instance : Spelled Endian where
  all := [.unspec, .big, .little]
  spell
    | .unspec => "unspec"
    | .big => "big"
    | .little => "little"

inductive ConstantLevel where
  | unknown | constant | immutableVariable | variable
  deriving DecidableEq, Repr

instance : Spelled ConstantLevel where
  all := [.unknown, .constant, .immutableVariable, .variable]
  spell
    | .unknown => "unknown"
    | .constant => "constant"
    | .immutableVariable => "immutable_variable"
    | .variable => "variable"

inductive BitAlignment where
  | byteAligned | bit1 | bit2 | bit3 | bit4 | bit5 | bit6 | bit7 | notTarget | notDecidable
  deriving DecidableEq, Repr

instance : Spelled BitAlignment where
  all := [.byteAligned, .bit1, .bit2, .bit3, .bit4, .bit5, .bit6, .bit7, .notTarget, .notDecidable]
  spell
    | .byteAligned => "byte_aligned"
    | .bit1 => "bit_1"
    | .bit2 => "bit_2"
    | .bit3 => "bit_3"
    | .bit4 => "bit_4"
    | .bit5 => "bit_5"
    | .bit6 => "bit_6"
    | .bit7 => "bit_7"
    | .notTarget => "not_target"
    | .notDecidable => "not_decidable"

def BitAlignment.bitOffset? : BitAlignment → Option Nat
  | .byteAligned => some 0
  | .bit1 => some 1
  | .bit2 => some 2
  | .bit3 => some 3
  | .bit4 => some 4
  | .bit5 => some 5
  | .bit6 => some 6
  | .bit7 => some 7
  | .notTarget | .notDecidable => none

inductive Follow where
  | unknown | end | fixed | constant | normal
  deriving DecidableEq, Repr

instance : Spelled Follow where
  all := [.unknown, .end, .fixed, .constant, .normal]
  spell
    | .unknown => "unknown"
    | .end => "end"
    | .fixed => "fixed"
    | .constant => "constant"
    | .normal => "normal"

inductive IoMethod where
  | unspec | outputPut | inputPeek | inputGet | inputBackward | inputOffset | inputBitOffset
  | inputRemain | inputSubrange | configEndianLittle | configEndianBig | configEndianNative
  | configBitOrderLsb | configBitOrderMsb
  deriving DecidableEq, Repr

instance : Spelled IoMethod where
  all := [
    .unspec, .outputPut, .inputPeek, .inputGet, .inputBackward, .inputOffset, .inputBitOffset,
    .inputRemain, .inputSubrange, .configEndianLittle, .configEndianBig, .configEndianNative,
    .configBitOrderLsb, .configBitOrderMsb]
  spell
    | .unspec => "unspec"
    | .outputPut => "output_put"
    | .inputPeek => "input_peek"
    | .inputGet => "input_get"
    | .inputBackward => "input_backward"
    | .inputOffset => "input_offset"
    | .inputBitOffset => "input_bit_offset"
    | .inputRemain => "input_remain"
    | .inputSubrange => "input_subrange"
    | .configEndianLittle => "config_endian_little"
    | .configEndianBig => "config_endian_big"
    | .configEndianNative => "config_endian_native"
    | .configBitOrderLsb => "config_bit_order_lsb"
    | .configBitOrderMsb => "config_bit_order_msb"

inductive SpecialLiteralKind where
  | input | output | config
  deriving DecidableEq, Repr

instance : Spelled SpecialLiteralKind where
  all := [.input, .output, .config]
  spell
    | .input => "input"
    | .output => "output"
    | .config => "config"

inductive OrderType where
  | byte | bitStream | bitMapping | bitBoth
  deriving DecidableEq, Repr

instance : Spelled OrderType where
  all := [.byte, .bitStream, .bitMapping, .bitBoth]
  spell
    | .byte => "byte"
    | .bitStream => "bit_stream"
    | .bitMapping => "bit_mapping"
    | .bitBoth => "bit_both"

structure BlockTraits where
  bits : UInt64
  deriving DecidableEq, Repr

namespace BlockTraits

def none : BlockTraits := ⟨0⟩

def contains (traits other : BlockTraits) : Bool :=
  traits.bits &&& other.bits = other.bits

def isEmpty (traits : BlockTraits) : Bool :=
  traits.bits = 0

def union (traits other : BlockTraits) : BlockTraits :=
  ⟨traits.bits ||| other.bits⟩

end BlockTraits

inductive Vocabulary where
  | unaryOp | binaryOp | identUsage | endian | constantLevel | bitAlignment | follow | ioMethod
  | specialLiteralKind | orderType
  deriving DecidableEq, Repr

namespace Vocabulary

def Word : Vocabulary → Type
  | .unaryOp => UnaryOp
  | .binaryOp => BinaryOp
  | .identUsage => IdentUsage
  | .endian => Endian
  | .constantLevel => ConstantLevel
  | .bitAlignment => BitAlignment
  | .follow => Follow
  | .ioMethod => IoMethod
  | .specialLiteralKind => SpecialLiteralKind
  | .orderType => OrderType

instance (v : Vocabulary) : Spelled v.Word :=
  match v with
  | .unaryOp => inferInstanceAs (Spelled UnaryOp)
  | .binaryOp => inferInstanceAs (Spelled BinaryOp)
  | .identUsage => inferInstanceAs (Spelled IdentUsage)
  | .endian => inferInstanceAs (Spelled Endian)
  | .constantLevel => inferInstanceAs (Spelled ConstantLevel)
  | .bitAlignment => inferInstanceAs (Spelled BitAlignment)
  | .follow => inferInstanceAs (Spelled Follow)
  | .ioMethod => inferInstanceAs (Spelled IoMethod)
  | .specialLiteralKind => inferInstanceAs (Spelled SpecialLiteralKind)
  | .orderType => inferInstanceAs (Spelled OrderType)

def first : (v : Vocabulary) → v.Word
  | .unaryOp => UnaryOp.not
  | .binaryOp => BinaryOp.mul
  | .identUsage => IdentUsage.unknown
  | .endian => Endian.unspec
  | .constantLevel => ConstantLevel.unknown
  | .bitAlignment => BitAlignment.byteAligned
  | .follow => Follow.unknown
  | .ioMethod => IoMethod.unspec
  | .specialLiteralKind => SpecialLiteralKind.input
  | .orderType => OrderType.byte

end Vocabulary

end FormatGraph
