import KPlugin.Blake2.Hash
import KPlugin.Json.RoundTrip
import KPlugin.Json.Answer
import KPlugin.Json.Output
import KPlugin.Json.StreamRuns
import KPlugin.Json.Relay
import KPlugin.Json.Dialogue
import KPlugin.Runtime.Unparse
import KPlugin.Bls12.TermGroup
import KPlugin.Bls12.Encodings
import KPlugin.Bls12.Conversions
import KPlugin.Bls12.Subgroup
import KPlugin.Bls12.BoolHooks
import KPlugin.Bls12.PairingExpressions
import KPlugin.Bn128.TermGroup
import KPlugin.Bn128.Assertions
import KPlugin.Bn128.PairingExpressions
import KPlugin.Curve.PairingChecks
import KPlugin.Ecdsa.Sender
import KPlugin.Kzg.Hooks
import KPlugin.Kzg.SetupString
import KPlugin.Kzg.Threads
import KPlugin.P256.Verify
import KPlugin.P256.Signer
