import LdapTgen.LabelledRun
import LdapTgen.Common
import LdapTgen.UserTable
import LdapTgen.Rotation
import LdapTgen.UserSearch
import LdapTgen.UserPolicies
import LdapTgen.MachineInt
import LdapTgen.AccountingAbort
import LdapTgen.MatedPair
import LdapTgen.TailedList
import LdapTgen.LdapLists
import LdapTgen.LdapControls
import LdapTgen.GenericControls
import LdapTgen.SearchModes
import LdapTgen.ScenarioExec
import LdapTgen.TimerWheel
import LdapTgen.Custody
import LdapTgen.AsyncSystem
import LdapTgen.AsyncMoves
import LdapTgen.Shutdown
import LdapTgen.AsyncControls
import LdapTgen.AsyncContexts
import LdapTgen.AsyncCustody
import LdapTgen.AsyncInvariant
import LdapTgen.StaleContexts
import LdapTgen.Completion
import LdapTgen.ThreadKeys
import LdapTgen.TimerThreads
import LdapTgen.TimerDelays
import LdapTgen.TimerClosing
import LdapTgen.TimerOrder
import LdapTgen.SceWait
import LdapTgen.LoadServer
import LdapTgen.ConnectionRestart
import LdapTgen.ConnectionOwners
import LdapTgen.BindLocks
import LdapTgen.RateRegulation
import LdapTgen.StatCounters
import LdapTgen.CString
import LdapTgen.AttrsBuild
import LdapTgen.AttrOperations
import LdapTgen.AttrValues
import LdapTgen.AttrBounds
import LdapTgen.Substitution
import LdapTgen.ControlBounds
import LdapTgen.UmaControls
import LdapTgen.SearchCommands
import LdapTgen.Profile
import LdapTgen.ProfileLoad
import LdapTgen.IniDocument
import LdapTgen.IniInclude
import LdapTgen.ScenarioLoad
import LdapTgen.UserPopulation
import LdapTgen.TrafficMix
import LdapTgen.TrafficLoad
import LdapTgen.ActionPointer
import LdapTgen.LinkedCells
import LdapTgen.RadiusIdentifiers
import LdapTgen.RadiusClient
import LdapTgen.RadiusQueue
import LdapTgen.RadiusPending
import LdapTgen.RadiusTimers
import LdapTgen.RadiusRetries
import LdapTgen.EapClient
import LdapTgen.EapExchange
import LdapTgen.FastReauth
import LdapTgen.AccessIdentifiers
import LdapTgen.NasSweep
import LdapTgen.UserData
import LdapTgen.SessionIds
import LdapTgen.SupplicantReceive
import LdapTgen.WimaxSession
import LdapTgen.Rebind
import LdapTgen.ConnectionSlots
import LdapTgen.SendVerdict
import LdapTgen.AuthTrouble
import LdapTgen.SupplicantSamples
import LdapTgen.VersionList
import LdapTgen.ChallengeResponse
import LdapTgen.IdentityBounds
import LdapTgen.SessionText
import LdapTgen.CellsAside
import LdapTgen.EventLoop
import LdapTgen.HexEncoders
import LdapTgen.FileNames
import LdapTgen.ResponseTimes
import LdapTgen.ActionVerdict
import LdapTgen.ConfigModuli
import LdapTgen.EapLoop
import LdapTgen.NestedCalls
import LdapTgen.IncludeCycles
import LdapTgen.ByteOrder
import LdapTgen.Tlv
import LdapTgen.Pieces
import LdapTgen.RadiusMessage
import LdapTgen.RadiusAuthenticators
import LdapTgen.RadiusAttributes
import LdapTgen.SupplicantRequest
import LdapTgen.SupplicantRounds
import LdapTgen.ChainedBlocks
import LdapTgen.MppeKeys
import LdapTgen.SupplicantExchange
import LdapTgen.SupplicantAnswers
import LdapTgen.RadRecv
import LdapTgen.RadPassword
import LdapTgen.RadDecode
import LdapTgen.RadValues
import LdapTgen.RadSend
