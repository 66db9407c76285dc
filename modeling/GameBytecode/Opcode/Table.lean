import GameBytecode.Opcode

/-!
The numbers of the opcodes: the place of each in one list.
-/
namespace GameBytecode.Opcode

/-- Every opcode, in the order of the codes. -/
def table : Array Opcode := #[
  .done, .arithmetic .float .mul, .dot, .scaleByLeft, .scaleByRight, .arithmetic .float .div,
  .arithmetic .float .add, .addVectors, .arithmetic .float .sub, .subVectors,
  .compare .float .eq, .same .vector true, .compare .string .eq, .same .entity true,
  .same .function true, .compare .float .ne, .same .vector false, .compare .string .ne,
  .same .entity false, .same .function false, .compare .float .le, .compare .float .ge,
  .compare .float .lt, .compare .float .gt, .load .float, .load .vector, .load .string,
  .load .entity, .load .field, .load .function, .fieldAddress, .store .float, .store .vector,
  .store .string, .store .entity, .store .field, .store .function, .storeThrough .float,
  .storeThrough .vector, .storeThrough .string, .storeThrough .entity, .storeThrough .field,
  .storeThrough .function, .ret, .isEmpty .float, .isEmpty .vector, .isEmpty .string,
  .isEmpty .entity, .isEmpty .function, .branch .nonzero, .branch .zero, .call 0, .call 1,
  .call 2, .call 3, .call 4, .call 5, .call 6, .call 7, .call 8, .state, .goto,
  .connective .float .and, .connective .float .or, .arithmetic .float .bitAnd,
  .arithmetic .float .bitOr, .concat, .compare .string .le, .compare .string .ge,
  .compare .string .lt, .compare .string .gt, .arithmetic .integer .add,
  .arithmetic .integer .sub, .arithmetic .integer .mul, .arithmetic .integer .div,
  .arithmetic .integer .bitAnd, .arithmetic .integer .bitOr, .compare .integer .ge,
  .compare .integer .le, .compare .integer .gt, .compare .integer .lt, .connective .integer .and,
  .connective .integer .or, .isEmpty .integer, .compare .integer .eq, .compare .integer .ne,
  .store .integer, .storeThrough .integer, .load .integer, .integerToFloat, .floatToInteger,
  .arithmetic .float .bitXor, .arithmetic .integer .bitXor, .complement .float,
  .complement .integer, .arithmetic .float .shiftLeft, .arithmetic .float .shiftRight,
  .arithmetic .integer .shiftLeft, .arithmetic .integer .shiftRight, .arithmetic .float .mod,
  .arithmetic .integer .mod, .loadAt .float, .loadAt .vector, .loadAt .string, .loadAt .entity,
  .loadAt .field, .loadAt .function, .loadAt .integer, .loadAt .pointer, .loadNear .float,
  .loadNear .vector, .loadNear .string, .loadNear .entity, .loadNear .field, .loadNear .function,
  .loadNear .integer, .loadNear .pointer, .storeAt .float, .storeAt .vector, .storeAt .string,
  .storeAt .entity, .storeAt .field, .storeAt .function, .storeAt .integer, .storeAt .pointer,
  .storeNear .float, .storeNear .vector, .storeNear .string, .storeNear .entity,
  .storeNear .field, .storeNear .function, .storeNear .integer, .storeNear .pointer,
  .load .pointer, .store .pointer, .storeThrough .pointer, .address .float, .address .vector,
  .address .string, .address .entity, .address .field, .address .function, .address .integer,
  .address .pointer, .advance, .advanceNear, .branch .notPositive, .branch .negative,
  .branch .notNegative, .branch .positive, .jump, .jumpTable, .compare .unsigned .lt,
  .compare .unsigned .gt, .compare .unsigned .le, .compare .unsigned .ge, .compare .pointer .ge,
  .compare .pointer .le, .compare .pointer .gt, .compare .pointer .lt, .compare .pointer .eq,
  .compare .pointer .ne, .isEmpty .pointer, .move, .moveThrough, .load .unsigned,
  .store .unsigned, .storeThrough .unsigned, .loadAt .unsigned, .loadNear .unsigned,
  .storeAt .unsigned, .storeNear .unsigned, .address .unsigned, .integerToUnsigned,
  .unsignedToInteger, .arithmetic .unsigned .add, .arithmetic .unsigned .sub,
  .arithmetic .unsigned .mul, .arithmetic .unsigned .div, .arithmetic .unsigned .mod,
  .arithmetic .unsigned .bitAnd, .arithmetic .unsigned .bitOr, .arithmetic .unsigned .bitXor,
  .complement .unsigned, .arithmetic .unsigned .shiftLeft, .arithmetic .unsigned .shiftRight,
  .connective .unsigned .and, .connective .unsigned .or, .isEmpty .unsigned,
  .compare .unsigned .eq, .compare .unsigned .ne]

def ofCode? (code : UInt16) : Option Opcode := table[code.toNat]?

def code (op : Opcode) : UInt16 := UInt16.ofNat (table.toList.idxOf op)

/-- Mnemonics in the order of the codes. -/
def mnemonics : Array String := table.map mnemonic

def ofMnemonic? (name : String) : Option Opcode :=
  (mnemonics.findIdx? (· == name)).bind (table[·]?)

end GameBytecode.Opcode
