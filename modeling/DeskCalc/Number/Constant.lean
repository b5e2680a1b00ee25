/-
  DeskCalc.Number.Constant — the doubles nearest to π and to Euler's number.
-/

namespace DeskCalc.Number

def pi : Float := Float.ofBits 0x400921FB54442D18

def euler : Float := Float.ofBits 0x4005BF0A8B145769

end DeskCalc.Number
