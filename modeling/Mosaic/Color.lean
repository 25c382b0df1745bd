/-!
# Colors

A color is a byte. The palette holds the ten colors `0, …, 9`; color `0` is the background. Bytes
outside the palette can be written down and recolored with, but no grid that is read holds one.
-/

namespace Mosaic

abbrev Color := UInt8

namespace Color

/-- The number of colors of the palette. -/
def paletteSize : Nat := 10

def background : Color := 0

def InPalette (c : Color) : Prop := c.toNat < paletteSize

instance (c : Color) : Decidable (InPalette c) := inferInstanceAs (Decidable (_ < _))

/-- The palette in ascending order. -/
def palette : List Color := [0, 1, 2, 3, 4, 5, 6, 7, 8, 9]

/-- The palette without the background. -/
def figures : List Color := palette.tail

theorem mem_palette_iff {c : Color} : c ∈ palette ↔ InPalette c := by
  simp only [palette, InPalette, paletteSize, List.mem_cons, List.not_mem_nil, or_false,
    ← UInt8.toNat_inj]
  simp only [UInt8.reduceToNat]
  omega

theorem background_inPalette : InPalette background := by decide

end Color
end Mosaic
