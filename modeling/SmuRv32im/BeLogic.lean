import SmuRv32im.Wires

/-!
# Byte Lanes

`be_logic` sits in two stages. In Memory it moves the stored byte or halfword to its lane
(`beWd`) and raises the strobes of the bytes to write (`byteEnable`); in Writeback it picks
the loaded byte or halfword out of the registered word and extends it (`beRd`). The lane is
the low end of the address; for halfwords its bit 0 is ignored.
-/

namespace SmuRv32im

/-- `BE_RD`: the loaded value. -/
def beRd (addrLast2 : BitVec 2) (f3 : BitVec 3) (rd : Word) : Word :=
  if f3 = 0b000#3 then
    if addrLast2 = 0b00#2 then (rd.extractLsb' 0 8).signExtend 32
    else if addrLast2 = 0b01#2 then (rd.extractLsb' 8 8).signExtend 32
    else if addrLast2 = 0b10#2 then (rd.extractLsb' 16 8).signExtend 32
    else if addrLast2 = 0b11#2 then (rd.extractLsb' 24 8).signExtend 32
    else 0#32
  else if f3 = 0b001#3 then
    if addrLast2 = 0b00#2 ∨ addrLast2 = 0b01#2 then (rd.extractLsb' 0 16).signExtend 32
    else if addrLast2 = 0b10#2 ∨ addrLast2 = 0b11#2 then
      (rd.extractLsb' 16 16).signExtend 32
    else 0#32
  else if f3 = 0b100#3 then
    if addrLast2 = 0b00#2 then (rd.extractLsb' 0 8).setWidth 32
    else if addrLast2 = 0b01#2 then (rd.extractLsb' 8 8).setWidth 32
    else if addrLast2 = 0b10#2 then (rd.extractLsb' 16 8).setWidth 32
    else if addrLast2 = 0b11#2 then (rd.extractLsb' 24 8).setWidth 32
    else 0#32
  else if f3 = 0b101#3 then
    if addrLast2 = 0b00#2 ∨ addrLast2 = 0b01#2 then (rd.extractLsb' 0 16).setWidth 32
    else if addrLast2 = 0b10#2 ∨ addrLast2 = 0b11#2 then (rd.extractLsb' 16 16).setWidth 32
    else 0#32
  else if f3 = 0b010#3 then rd
  else 0#32

/-- `BE_WD`: the stored value, moved to its lane. -/
def beWd (addrLast2 : BitVec 2) (f3 : BitVec 3) (wd : Word) : Word :=
  if f3 = 0b000#3 then
    if addrLast2 = 0b00#2 then 0#24 ++ wd.extractLsb' 0 8
    else if addrLast2 = 0b01#2 then 0#16 ++ wd.extractLsb' 0 8 ++ 0#8
    else if addrLast2 = 0b10#2 then 0#8 ++ wd.extractLsb' 0 8 ++ 0#16
    else if addrLast2 = 0b11#2 then wd.extractLsb' 0 8 ++ 0#24
    else 0#32
  else if f3 = 0b001#3 then
    if addrLast2 = 0b00#2 ∨ addrLast2 = 0b01#2 then 0#16 ++ wd.extractLsb' 0 16
    else if addrLast2 = 0b10#2 ∨ addrLast2 = 0b11#2 then wd.extractLsb' 0 16 ++ 0#16
    else 0#32
  else if f3 = 0b010#3 then wd
  else 0#32

/-- `ByteEnable`: the strobes of the bytes to write. -/
def byteEnable (addrLast2 : BitVec 2) (f3 : BitVec 3) : BitVec 4 :=
  if f3 = 0b000#3 then
    if addrLast2 = 0b00#2 then 0b0001#4
    else if addrLast2 = 0b01#2 then 0b0010#4
    else if addrLast2 = 0b10#2 then 0b0100#4
    else if addrLast2 = 0b11#2 then 0b1000#4
    else 0b1111#4
  else if f3 = 0b001#3 then
    if addrLast2 = 0b00#2 ∨ addrLast2 = 0b01#2 then 0b0011#4
    else if addrLast2 = 0b10#2 ∨ addrLast2 = 0b11#2 then 0b1100#4
    else 0b1111#4
  else 0b1111#4

end SmuRv32im
