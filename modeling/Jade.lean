import Jade.Lib.Exec
import Jade.Lib.Run
import Jade.Lib.Flash
import Jade.Keychain.Keychain
import Jade.Keychain.PinBound
import Jade.Ota.Util
import Jade.Ota.Process
import Jade.Ota.Install
import Jade.Lib.Checked
import Jade.Lib.Slots
import Jade.Mweb.Balance
import Jade.Keychain.Derive
import Jade.Keychain.HasPin
import Jade.Keychain.StoreLoad
import Jade.Keychain.Login
import Jade.Keychain.Restriction
import Jade.Lib.Cbor
import Jade.Process.Wire
import Jade.Mweb.Address
import Jade.Mweb.Agreement
import Jade.SignPsbt.Sign
import Jade.SignPsbt.Pegouts
import Jade.Lib.Code
import Jade.Mweb.Message
import Jade.Otp.Counter
import Jade.SignPsbt.Amounts
import Jade.SignPsbt.Recipients
import Jade.SignPsbt.Checks
import Jade.Lib.Cursor
import Jade.Registration.Descriptor
import Jade.Registration.Multisig
import Jade.Process.Dispatch
import Jade.Registration.ExportFile
import Jade.Registration.ImportFile
import Jade.SignPsbt.Green
import Jade.SignPsbt.GreenScript
import Jade.SignPsbt.SharedRecord
import Jade.Mweb.SignedFields
import Jade.SignMessage.File
import Jade.SignMessage.Process
import Jade.SignMessage.Request
import Jade.Bip85.Confirmed
import Jade.Bip85.Digests
import Jade.Pinserver.Lockout
import Jade.Lib.Dialogue
import Jade.Otp.Reregister
import Jade.Registration.Load
import Jade.SignPsbt.Reply
import Jade.SignTx.Outputs
import Jade.SignTx.ReceiveAddress
import Jade.SignTx.UnusualPath
import Jade.Utils.CborSlices
import Jade.Lib.Schnorr
import Jade.Mweb.Schnorr
import Jade.Mweb.Mpi
import Jade.Mweb.SignerChecks
import Jade.Registration.FileAccepted
import Jade.Registration.Process
import Jade.SignPsbt.ShownAmounts
import Jade.SignTx.Commitments
import Jade.SignTx.Assets
import Jade.SignTx.Messages
import Jade.SignTx.Inputs
import Jade.Mnemonic.Import
import Jade.Mnemonic.SetUp
import Jade.Mnemonic.Expansion
import Jade.Mnemonic.Bcur
import Jade.Utils.Urldecode
import Jade.Mweb.ScalarMemory
import Jade.Mweb.Bech32
import Jade.Keychain.KeyNames
import Jade.SignPsbt.KeyIteration
import Jade.Otp.UriSlices
import Jade.Otp.AuthCode
import Jade.Wallet.PathRoundTrip
import Jade.Qrmode.SearchRun
import Jade.Process.Session
import Jade.SignTx.Process
import Jade.SignTx.Turns
import Jade.SignTx.Prevouts
import Jade.Lib.Tally
import Jade.SignTx.Phases
import Jade.SignTx.Authentic
import Jade.SignTx.Summaries
import Jade.SignTx.LiquidInputs
import Jade.SignTx.Liquid
import Jade.SignTx.Batch
import Jade.Lib.Replay
import Jade.Pinserver.AuthUser
import Jade.Pinserver.Handshake
import Jade.Pinserver.LoginSteps
import Jade.Pinserver.Unlock
