/-
The card definition as the library reads it (`snd_card_plugin.c`): the node of a device and its properties.
-/
import Mathlib.Init

namespace Tinyalsa

/-- `struct snd_node` with the operations of the definition's parser. A property that a lookup does not
write leaves the caller's variable alone. -/
structure SndNode where
  cardNode : Bool := true
  devNode : Bool := true
  dlHdl : Bool := true
  getInt : String → Int × Option Int
  getStr : String → Int × Option (List UInt8)

/-- `SND_NODE_TYPE_HW`. -/
def sndNodeTypeHw : Int := 0

/-- `SND_NODE_TYPE_PLUGIN`. -/
def sndNodeTypePlugin : Int := 1

/-- `snd_utils_get_int`. -/
def sndUtilsGetInt (node : Option SndNode) (prop : String) (val : Int) : Int × Int :=
  match node with
  | none => (sndNodeTypeHw, val)
  | some n =>
    if !n.cardNode || !n.devNode then (sndNodeTypeHw, val)
    else ((n.getInt prop).1, (n.getInt prop).2.getD val)

/-- `snd_utils_get_str`; `none` where `*val` is not written. -/
def sndUtilsGetStr (node : Option SndNode) (prop : String) : Int × Option (List UInt8) :=
  match node with
  | none => (sndNodeTypeHw, none)
  | some n => if !n.cardNode || !n.devNode then (sndNodeTypeHw, none) else n.getStr prop

/-- `snd_utils_get_node_type`. -/
def sndUtilsGetNodeType (node : Option SndNode) : Int :=
  match node with
  | none => sndNodeTypeHw
  | some n => if !n.cardNode || !n.devNode then sndNodeTypeHw else (n.getInt "type").2.getD sndNodeTypeHw

end Tinyalsa
