import BrokerCli.Text.Basic

/-!
# Literal addresses

A host that is not registered may still be named by its address: four decimal octets, or
`localhost`, each with ports behind colons. The grammar, with no blank anywhere:

* an OCTET is a number from 0 to 255 without a zero in front;
* a port number is a run of digits that does not begin with a zero, after `localhost` of at most four;
* any number of them may follow.
-/

namespace BrokerCli.Address

/-- A number from 0 to 255 without a zero in front. -/
def isOctet (cs : List Char) : Bool :=
  cs.all Char.isDigit &&
    match cs with
    | [] => false
    | ['0'] => true
    | '0' :: _ => false
    | _ => cs.length ≤ 3 && Nat.ofDigitChars 10 cs 0 ≤ 255

/-- Digits that do not begin with a zero. -/
def isPort : List Char → Bool
  | [] => false
  | c :: cs => c ≠ '0' && (c :: cs).all Char.isDigit

/-- Four octets with dots between them. -/
def isQuad (cs : List Char) : Bool :=
  let octets := Text.pieces '.' cs
  octets.length = 4 && octets.all isOctet

/-- Whether a text is a literal address. -/
def isLiteral (s : String) : Bool :=
  match Text.pieces ':' s.toList with
  | [] => false
  | host :: ports =>
    (isQuad host && ports.all isPort) ||
      (host = "localhost".toList && ports.all fun p => isPort p && p.length ≤ 4)

end BrokerCli.Address
