import Xion.Lib.SortedMap
import Xion.Lib.Run
import Xion.Lib.Bytes
import Xion.Lib.Base64
import Xion.Lib.KeyCodec
import Xion.Lib.BinarySearch
import Xion.Lib.IndexedStore
import Xion.Lib.Limbs
import Xion.Lib.KeyedList
import Xion.Lib.GoStrings
import Xion.Lib.Word
import Xion.Lib.Rounding
import Xion.Dkim.Types
import Xion.Dkim.Primitives
import Xion.Dkim.Poseidon
import Xion.Dkim.Keeper
import Xion.Dkim.Genesis
import Xion.Dkim.Revocation
import Xion.Dkim.Query
import Xion.Dkim.Subject
import Xion.Dkim.Authenticate
import Xion.Jwk.Keeper
import Xion.Jwk.Claims
import Xion.Jwk.Query
import Xion.Zk.Types
import Xion.Zk.Keeper
import Xion.Zk.Store
import Xion.Zk.Query
import Xion.GlobalFee.Coins
import Xion.GlobalFee.Ante
import Xion.Indexer.Handlers
import Xion.Indexer.Query
import Xion.Sdk.Coins
import Xion.Sdk.Bank
import Xion.Module.PlatformFee
import Xion.Module.MsgServer
import Xion.Module.MultiSend
import Xion.Sdk.Mint
import Xion.Sdk.Inflation
import Xion.Module.Mint
import Xion.Module.Feegrant
import Xion.Module.FeegrantValidate
