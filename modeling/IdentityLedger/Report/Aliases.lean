import IdentityLedger.Identifier
import IdentityLedger.Json.Texts

/-!
# Aliases of generated identifiers

Identifiers that are generated during a run differ from run to run. An account of a
run names them instead: a profile by its rank among the generated ones, an event by
the order in which events are mentioned.
-/
namespace IdentityLedger.Aliases
open Json

def profileAlias (earlier : Nat) : String := "$" ++ toString (earlier + 1)

def eventAlias (earlier : Nat) : String := "#" ++ toString (earlier + 1)

def profile? (generated : List AggregateId) (text : String) : Option AggregateId :=
  (generated.zipIdx.find? fun (_, earlier) => text = profileAlias earlier).map Prod.fst

def resolve (generated : List AggregateId) (input : Json) : Json :=
  input.mapTexts (fun _ text => ((profile? generated text).map AggregateId.text).getD text) ""

/-- Puts aliases in place of the ids of generated profiles, also inside longer texts. -/
def hide (generated : List AggregateId) (account : Json) : Json :=
  let hideIn (text : String) : String :=
    generated.zipIdx.foldl (fun text (id, earlier) => text.replace id.text (profileAlias earlier)) text
  account.mapTexts (fun _ text => hideIn text) ""

def isEventId (name : String) : Bool := name = "event_id"

def mentioned (account : Json) : List String :=
  (((account.texts "").filter fun (name, _) => isEventId name).map Prod.snd).foldl
    (fun known id => if known.contains id then known else known ++ [id]) []

/-- Puts aliases in place of event ids, counted over the whole account. -/
def numberEvents (account : Json) : Json :=
  let account := account.sorted
  let known := mentioned account
  account.mapTexts
    (fun name text =>
      if isEventId name then ((known.idxOf? text).map eventAlias).getD text else text) ""

end IdentityLedger.Aliases
