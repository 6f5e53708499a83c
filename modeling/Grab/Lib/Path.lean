import Mathlib.Data.List.Basic
import Grab.Lib.Decimal

/-!
# Paths

`std::filesystem::path` on POSIX: a path is its text, and paths are ordered by their bytes.
-/

namespace Grab.Lib.Path

open Grab.Lib.Decimal (Text)

def ascii (text : String) : Text := text.toList.map fun char => UInt8.ofNat char.toNat

/-- The bytes of a text as numbers; texts are ordered by them. -/
def octets (text : Text) : List ℕ := text.map UInt8.toNat

theorem octets_injective : Function.Injective octets :=
  List.map_injective_iff.mpr fun _ _ same => UInt8.toNat_inj.mp same

end Grab.Lib.Path
