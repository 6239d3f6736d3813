/-
**Networks.**

The device signs for Bitcoin, Liquid and Litecoin, each with a main network, a test network and a
local one.

Main definitions:

* `Jade.Network` — the networks;
* `Jade.networkFromName` — the network a request names;
* `Jade.networkIsLiquid`, `Jade.networkIsLitecoin` — the families the signing code tells apart.
-/

import Mathlib.Data.Nat.Notation

set_option relaxedAutoImplicit false
set_option autoImplicit false

namespace Jade

/-- `network_t`, without `NETWORK_NONE`, which every entry point refuses. -/
inductive Network
  | bitcoin
  | bitcoinRegtest
  | bitcoinTestnet
  | liquid
  | liquidRegtest
  | liquidTestnet
  | litecoin
  | litecoinTestnet
  | litecoinRegtest
  deriving Repr, DecidableEq

/-- `network_from_name`; a missing or unknown name stands for `NETWORK_NONE`. -/
def networkFromName : Option String → Option Network
  | some "mainnet" => some .bitcoin
  | some "liquid" => some .liquid
  | some "litecoin" => some .litecoin
  | some "testnet" => some .bitcoinTestnet
  | some "testnet-liquid" => some .liquidTestnet
  | some "testnet-litecoin" => some .litecoinTestnet
  | some "localtest" => some .bitcoinRegtest
  | some "localtest-liquid" => some .liquidRegtest
  | some "localtest-litecoin" => some .litecoinRegtest
  | _ => none

/-- `network_is_liquid` -/
def networkIsLiquid : Network → Bool
  | .liquid | .liquidTestnet | .liquidRegtest => true
  | _ => false

/-- `network_is_litecoin` -/
def networkIsLitecoin : Network → Bool
  | .litecoin | .litecoinTestnet | .litecoinRegtest => true
  | _ => false

end Jade
