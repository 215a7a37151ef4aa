import Licensing.Seat.Manager
import Licensing.Service.Query

/-!
# Walking along links

A caller that is shown a page of seats follows the link to the next page, until there are no more
seats. The link is a text, and the question for the next page is what its query says.
-/

namespace Licensing.Service

/-- The question for seats that a link asks. -/
def linkQuery (link : String) : Except String SeatQuery :=
  seatQuery (splitTarget link).2

variable {σ : Type}

/-- The pages that a caller is shown on a walk from a question on, and what becomes of the
services. -/
inductive Walk (answer : σ → (c : SeatCall) → c.Answer × σ) (i : Identity) :
    SeatQuery → σ → List SeatPage → σ → Prop where
  /-- The page is empty, and the walk ends. -/
  | last {q : SeatQuery} {s s' : σ} {p : SeatPage}
    (hp : (Seat.list i q).run answer s = (.ok p, s')) (hempty : p.seats = []) :
    Walk answer i q s [p] s'
  /-- The page has seats, and the walk goes on to the next one. -/
  | next {q q' : SeatQuery} {s s' s'' : σ} {p : SeatPage} {ps : List SeatPage}
    (hp : (Seat.list i q).run answer s = (.ok p, s')) (hseats : p.seats ≠ [])
    (hq : linkQuery p.links.next = .ok q') (hwalk : Walk answer i q' s' ps s'') :
    Walk answer i q s (p :: ps) s''

end Licensing.Service
