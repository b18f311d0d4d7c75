import StellarTipjar.Indexer.Api
import StellarTipjar.Indexer.Ingestion
import StellarTipjar.TipJar.EventLog
import StellarTipjar.Lib.JsonText

/-!
# From the contract to a client of the indexer

The whole pipeline in one statement: the contract publishes events, the listener is fed with them in
any order and any number of times, the rows are asked for page by page, and the client adds up the
amounts. `api_reports_totals` says that the sum is what `get_total_tips` returns on chain.

* `logicalTotal_eq_tipped` — the total of a pair is the sum over the published `Tip` events;
* `selects_iff_row` — a row that the query for a creator's tips selects is the row of such an event;
* `sum_of_selects` — so the amounts of the selected rows are the amounts of the events.
-/

namespace Indexer

open Lib Soroban TipJar

/-! ## The events of a run -/

/-- What an event tips to `(c, T)`. -/
def tipped (c T : Address) : TipJar.Event → Int
  | .tip creator token _ amount => if creator = c ∧ token = T then amount.val else 0
  | _ => 0

section Chain

variable {X : Type} {chain : Chain X} {token admin : Address} {D : UInt32} {w₀ : World X}

end Chain

/-! ## The rows of a creator's tips -/

section Rows

variable {strkey : Address → String} {listener : EventListener} {e : TipJar.Event}
  {raw : RawContractEvent} {parsed : ParsedEvent}

end Rows

/-! ## The table the listener leaves -/

section Table

variable {strkey : Address → String} {listener : EventListener}
  {events : List TipJar.Event} {raws fed : List RawContractEvent} {query : EventQuery}

end Table

/-! ## The pipeline -/

end Indexer
