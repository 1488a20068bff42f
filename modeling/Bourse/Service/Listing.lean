import Bourse.Market.Published
/-!
The data service: for every symbol the figures, bars and corporate actions that it hands out, or the
text with which it fails. The service may be absent altogether.
-/
namespace Bourse

/-- A bar as the service hands it out, with a volume that may have a fraction. -/
structure ServiceBar where
  time : Moment
  opening : Float
  high : Float
  low : Float
  close : Float
  volume : Float

/-- What the service hands out for a symbol. -/
structure Listing where
  /-- The text with which every request for the symbol fails. -/
  failure : Option String := none
  published : Published := []
  /-- The text with which requests for bars fail. -/
  historyFailure : Option String := none
  bars : List ServiceBar := []
  dividends : List (Moment × Float) := []
  splits : List (Moment × Float) := []

/-- The listings of a service. -/
structure Service where
  listings : List (String × Listing) := []

namespace Service

/-- The listing of a symbol; for an unknown symbol there is an empty one. -/
def listing (service : Service) (symbol : String) : Listing :=
  ((service.listings.find? (·.1 == symbol)).map (·.2)).getD {}

/-- The listing of a symbol, or the text with which it fails. -/
def openListing (service : Service) (symbol : String) : Except String Listing :=
  let listing := service.listing symbol
  match listing.failure with
  | some text => .error text
  | none => .ok listing

/-- The current quote of a symbol, or the text with which it fails. -/
def quote (service : Service) (symbol : String) : Except String Quote := do
  let listing ← service.openListing symbol
  (Quote.ofPublished symbol listing.published).mapError QuoteError.message

/-- The message where the service is absent. -/
def absence : String := "yfinance is not installed. Install it with: pip install yfinance"

end Service

end Bourse
