import CouncilDaemon.Interfaces
import CouncilDaemon.Common.OneAtTime
import CouncilDaemon.KeysApi.Service
import CouncilDaemon.KeysValidation.Service
import CouncilDaemon.StakingModuleGuard.FrontRun
import CouncilDaemon.StakingModuleGuard.CorrectKeys
import CouncilDaemon.DepositsRegistry.Chunks
import CouncilDaemon.DepositsRegistry.DepositTree
import CouncilDaemon.DepositsRegistry.Store
import CouncilDaemon.DepositsRegistry.Service
import CouncilDaemon.Guardian.HandleNewBlock
import CouncilDaemon.Guardian.Interleaving
import CouncilDaemon.Guardian.Ticks
import CouncilDaemon.Guardian.Daemon
import CouncilDaemon.Wallet.Signing
import CouncilDaemon.Guardian.Resigning
import CouncilDaemon.Guardian.DepositLog
