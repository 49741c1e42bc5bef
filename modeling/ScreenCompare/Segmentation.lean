import ScreenCompare.LabelMap.Flood
import ScreenCompare.LabelMap.Marker
import ScreenCompare.LabelMap.Region
import ScreenCompare.Ridge

/-!
# Segmentation of a picture

A picture is cut into regions of coherent content: its ridges are found, their
borders painted as markers, the markers raised by one so that everything outside
them is a region too, the map flooded over the picture, and the regions of what
results collected.  The lowest label is then the background, which is no region.
-/

namespace ScreenCompare.Picture

/-- The regions of a picture with a given gray version. -/
def regionsOver (relief : Picture) (gray : GrayPicture) (threshold : UInt8) :
    Except Misuse (List Region) := do
  let markers := LabelMap.ofMask (gray.ridges threshold)
  let flooded ← (markers.raise 1).flood? relief
  return flooded.regions

end ScreenCompare.Picture
