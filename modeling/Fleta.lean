import Fleta.ChainHistory
import Fleta.ObserverAgreement
import Fleta.PileReopen
import Fleta.StoreAtomic
import Fleta.LevelRoot
import Fleta.PayoutBounds
import Fleta.PayoutRuns
import Fleta.UnstakingLedger
import Fleta.AmountText
import Fleta.AddressText
import Fleta.ConsensusRestart
import Fleta.RoundProgress
import Fleta.NilPointers
import Fleta.HashMemo
import Fleta.UTXOLife
import Fleta.RegistryRuns
import Fleta.FailedConnect
import Fleta.ContextBinding
import Fleta.PoolIdentity
import Fleta.ValidationPanics
import Fleta.PileHash
import Fleta.PrefixScan
import Fleta.PileCrash
import Fleta.Subscriptions
import Fleta.StorageKeys
import Fleta.PoolExpiry
import Fleta.PoolProgress
import Fleta.PagedQueue
import Fleta.RequestTimer
