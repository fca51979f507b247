import MC68000.Exception
import MC68000.Host
import MC68000.Registers

set_option autoImplicit false

namespace MC68000

/-- Replaces the processing of an exception: given the vector and the registers, it gives the registers to
go on with. -/
abbrev VectorHook (World : Type) :=
  VectorNumber → Registers → Host World → Registers × Host World

/-- The functions of the host that the machine calls. -/
structure Hooks (World : Type) where
  /-- Called when RESET is executed. -/
  reset : Option (Host World → Host World)
  /-- Called with the level of an interrupt when it is acknowledged. -/
  acknowledge : Option (Fin 8 → Host World → Host World)
  /-- Called in place of the processing of an exception. -/
  vectors : VectorNumber → Option (VectorHook World)

namespace Hooks

variable {World : Type}

def none : Hooks World := ⟨.none, .none, fun _ => .none⟩

/-- Puts a function in place of the processing of one vector. -/
def intercept (hooks : Hooks World) (vector : VectorNumber) (hook : VectorHook World) : Hooks World :=
  { hooks with vectors := fun v => if v = vector then some hook else hooks.vectors v }

/-- The vectors that are intercepted, in ascending order. -/
def intercepted (hooks : Hooks World) : List VectorNumber :=
  ((List.range 256).map (BitVec.ofNat 8)).filter fun vector => (hooks.vectors vector).isSome

/-- The functions that are present in one line of text. -/
def text (hooks : Hooks World) : String :=
  "Hooks \x7b reset: " ++ toString hooks.reset.isSome ++ ", iack: "
    ++ toString hooks.acknowledge.isSome ++ ", vectors: ["
    ++ ", ".intercalate (hooks.intercepted.map fun vector => toString vector.toNat) ++ "] \x7d"

end Hooks

end MC68000
