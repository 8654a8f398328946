import GBerry.Foundation.Execution
import GBerry.Foundation.Framing
import GBerry.Foundation.Lifecycle
import GBerry.Foundation.Refinement
import GBerry.Foundation.StreamLink
import GBerry.Foundation.Delivery
import GBerry.Foundation.Mirror
import GBerry.Foundation.Utf8
import GBerry.Foundation.Action
import GBerry.Foundation.Alternation
import GBerry.Foundation.Climb
import GBerry.Foundation.Fallible
import GBerry.Foundation.Loop
import GBerry.Foundation.PaddedOrder
import GBerry.Foundation.Replacement
import GBerry.Foundation.Selection
import GBerry.Foundation.Sentences
import GBerry.Foundation.Template
import GBerry.Foundation.Path
import GBerry.Foundation.JavaScript
import GBerry.Foundation.SharedData
import GBerry.Foundation.ValueSemantics
import GBerry.Common.Paths
import GBerry.Common.QMap
import GBerry.Common.QString
import GBerry.Common.QSettings
import GBerry.Common.Json
import GBerry.Common.MessageFactory
import GBerry.Common.MessageReader
import GBerry.Common.MessageReader.Consumption
import GBerry.Server.Channel
import GBerry.Server.PlayerChannel
import GBerry.Server.PlayerChannel.Openness
import GBerry.Server.PlayerConnectionManager
import GBerry.Server.ChannelManager
import GBerry.Server.ChannelManager.Invariant
import GBerry.Server.ChannelManager.Effect
import GBerry.Server.ChannelManager.Representation
import GBerry.Server.ChannelManager.Addressing
import GBerry.Server.ChannelManager.PlayerMessages
import GBerry.Server.ChannelManager.Announcement
import GBerry.Server.ChannelManager.Fallback
import GBerry.Server.ChannelManager.Background
import GBerry.Server.ChannelManager.Foreign
import GBerry.Server.CommTcpServer
import GBerry.Server.ApplicationRegistry
import GBerry.Server.ApplicationRegistry.Codes
import GBerry.Server.ConnectionManager
import GBerry.Server.ConnectionManager.Gate
import GBerry.Server.PlayerSession
import GBerry.Server.ConsoleRESTServer
import GBerry.Server.ConsoleRESTServer.Sessions
import GBerry.Server.ConsoleRESTServer.Guests
import GBerry.Server.WebsocketServer
import GBerry.Server.WebsocketServer.Ownership
import GBerry.Server.FileHttpServer
import GBerry.Client.ChannelManager
import GBerry.Client.ChannelTable
import GBerry.Client.ApplicationVersionNumber
import GBerry.Client.GameModel
import GBerry.Client.DownloadableGamesModel
import GBerry.Client.PlayersManager
import GBerry.Client.PlayersManager.Index
import GBerry.Protocol.System
import GBerry.Protocol.Settled
import GBerry.Protocol.Invariant
import GBerry.Protocol.Agreement
import GBerry.Protocol.GhostPlayers
import GBerry.Protocol.Links
import GBerry.Protocol.Steering
import GBerry.Protocol.Activation
import GBerry.Protocol.Players
import GBerry.Protocol.PlayerChannels
import GBerry.Protocol.PlayerText
import GBerry.Protocol.PlayerConsole
import GBerry.Protocol.PlayerIndex
import GBerry.Protocol.PlayerDelivery
import GBerry.Protocol.PlayerDelivery.Queues
import GBerry.Protocol.PlayerDelivery.InOrder
import GBerry.Protocol.Wire
import GBerry.Protocol.Wire.Refinement
import GBerry.Comms.HeadServerConnection
import GBerry.Comms.HeadServerConnection.Status
import GBerry.Comms.HeadServerConnection.Pending
import GBerry.Comms.HeadServerConnection.Heartbeat
import GBerry.Comms.HeadServerConnection.Requests
import GBerry.Protocol.HeadServerStatus
import GBerry.Protocol.HeadServerStatus.Links
import GBerry.Protocol.HeadServerStatus.Agreement
import GBerry.Comms.LocalApplicationsStorage
import GBerry.Comms.Storage.ApplicationConfigReaderWriter
import GBerry.Comms.Storage.LocalApplicationsStorage
import GBerry.Comms.Storage.Effect
import GBerry.Comms.Storage.Failures
import GBerry.Comms.Storage.Views
import GBerry.Comms.Storage.Deletion
import GBerry.Comms.Storage.Abstraction
import GBerry.Comms.Storage.Loading
import GBerry.Comms.Storage.RoundTrip
import GBerry.Comms.DownloadApplicationCommand
import GBerry.Comms.DownloadApplicationCommand.Cancellation
import GBerry.Comms.DownloadApplicationCommand.AllOrNothing
import GBerry.Comms.DownloadApplicationCommand.Replies
import GBerry.Client.DownloadModel
import GBerry.Protocol.Downloads
import GBerry.Protocol.Downloads.Conservation
import GBerry.Comms.ApplicationController
import GBerry.Comms.ApplicationController.Signals
import GBerry.Comms.ApplicationController.LastCommand
import GBerry.Comms.UIAppStateMachine
import GBerry.Comms.UIAppStateMachine.Visible
import GBerry.Comms.UIAppStateMachine.LaunchRequests
import GBerry.Comms.UIAppStateMachine.MissingApplication
import GBerry.Comms.Console
import GBerry.Comms.Console.Exit
import GBerry.Lib.Result
import GBerry.Lib.Result.ValueSemantics
import GBerry.Lib.ResultMessageFormatter
import GBerry.Lib.ResultMessageFormatter.Expansion
import GBerry.Lib.ResultMessageFormatter.DeveloperMessage
import GBerry.Lib.ResultMessageFormatter.HiddenErrors
import GBerry.Lib.Invocation
import GBerry.Lib.DownloadStreamInvocation
import GBerry.Lib.DownloadStreamInvocation.Steps
import GBerry.Lib.DownloadStreamInvocation.Outcomes
import GBerry.Lib.DownloadStreamInvocation.Completeness
import GBerry.Lib.DownloadStreamInvocation.Percentage
import GBerry.Lib.DownloadStreamInvocation.Progress
import GBerry.Lib.ServerConnectionImpl
import GBerry.Comms.QueryDownloadableApplicationsCommand
import GBerry.Comms.QueryDownloadableApplicationsCommand.Ownership
import GBerry.Comms.QueryDownloadableApplicationsCommand.Provenance
import GBerry.Protocol.Catalogue
import GBerry.Protocol.Catalogue.Queries
import GBerry.Protocol.Catalogue.Authority
import GBerry.Protocol.Catalogue.Games
import GBerry.Mobile.UserModel
import GBerry.Mobile.UserModel.Calls
import GBerry.Mobile.UserModel.ActiveUser
import GBerry.Mobile.UserModel.Queries
import GBerry.Mobile.UserModel.File
import GBerry.Mobile.UserModel.RoundTrip
import GBerry.Mobile.LoginModel
import GBerry.Mobile.LoginModel.Steps
import GBerry.Mobile.LoginModel.Tokens
import GBerry.Mobile.LoginModel.Completion
import GBerry.Mobile.SettingsModel
import GBerry.Mobile.SettingsModel.Persistence
import GBerry.Mobile.ConsoleSessionManager
import GBerry.Protocol.ConsoleSessions
import GBerry.Protocol.ConsoleSessions.Identity
import GBerry.Games.Trivia.PointsModel
import GBerry.Games.Trivia.QuestionsModel
import GBerry.Games.Trivia.QuestionsModel.Shuffling
import GBerry.Games.Trivia.TriviaGameModel
import GBerry.Games.Trivia.TriviaGameModel.Scoring
import GBerry.Games.React.ReactGameModel
import GBerry.Games.React.ReactGameModel.Fairness
import GBerry.Games.TicTacToe.GameModel
import GBerry.Games.TicTacToe.GameModel.Verdict
import GBerry.Games.TicTacToe.PlayerWaitingModel
import GBerry.Games.TicTacToe.AppBox
import GBerry.Games.TicTacToe.Window
import GBerry.Games.TicTacToe.Party
import GBerry.Games.TicTacToe.Window.Views
import GBerry.Games.TicTacToe.Window.Joining
import GBerry.Games.TicTacToe.Window.Playing
import GBerry.Games.TicTacToe.Window.Agreement
import GBerry.Games.TicTacToe.Party.Agreement
