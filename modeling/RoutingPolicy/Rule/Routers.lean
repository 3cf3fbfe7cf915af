import RoutingPolicy.Address.Notation
import RoutingPolicy.Rule.Decomposition

/-!
# Router addresses of a rule

A rule may name the two ends of its peering session, as in `from AS1 10.0.0.2 at 10.0.0.1`. The
remote address is the token before `AT`, the local address the token before the action clause or,
without one, before the filter.
-/

namespace RoutingPolicy

namespace AddressPair

def isFilterToken (token : Token) : Bool :=
  Decomposition.filterKeywords.any token.isKeyword

/-- The text of the last token before the first one that satisfies `stop`. -/
def textBefore? (stop : Token → Bool) (tokens : List Token) : Option Text :=
  ((tokens.takeWhile (!stop ·)).getLast?).map Token.text

/-- The texts in the place of the remote address. -/
def remoteText? (tokens : List Token) : Option Text :=
  textBefore? (·.isKeyword .atRouter) tokens

/-- The text in the place of the local address. -/
def localText? (tokens : List Token) : Option Text :=
  if tokens.any (·.isKeyword .action) then textBefore? (·.isKeyword .action) tokens
  else textBefore? isFilterToken tokens

/-- The router addresses of a rule that has an `AT`. Both have to be IPv6 addresses in a
multiprotocol rule and IPv4 addresses in any other. -/
def ofRule? (text : Text) (multiprotocol : Bool) : Option AddressPair :=
  let tokens := tokenize text
  if tokens.any (·.isKeyword .atRouter) then do
    let remote ← (remoteText? tokens).bind (Address.read? .strict multiprotocol)
    let localEnd ← (localText? tokens).bind (Address.read? .strict multiprotocol)
    return ⟨localEnd, remote⟩
  else none

end AddressPair

end RoutingPolicy
