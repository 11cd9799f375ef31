/-
The values of `errno` that the library stores, returns negated or compares with (Linux).
-/
import Mathlib.Init

namespace Tinyalsa

def eIntr : Int := 4
def eIo : Int := 5
def eAgain : Int := 11
def eNoMem : Int := 12
def eNoDev : Int := 19
def eInval : Int := 22
def ePipe : Int := 32
def eNoSys : Int := 38
def eBadFd : Int := 77
def eStrPipe : Int := 86

end Tinyalsa
