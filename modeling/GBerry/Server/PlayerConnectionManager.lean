import GBerry.Common.QString
import GBerry.Server.ChannelManager

/-!
# `PlayerConnectionManager`

The channel of every player that the websocket server has connected.  A text
from a player reaches its channel in Latin-1, and the bytes from a channel reach
the websocket server as the text that they encode.
-/

namespace GBerry.Server

open GBerry.Common

/-- A channel is known here by its id. -/
structure PlayerConnectionManager where
  channelByPlayerId : QMap Int Int
  playerIdByChannelId : QMap Int Int

namespace PlayerConnectionManager

def start : PlayerConnectionManager where
  channelByPlayerId := ∅
  playerIdByChannelId := ∅

def registerPlayer (m : PlayerConnectionManager) (playerId channelId : Int) :
    PlayerConnectionManager where
  channelByPlayerId := m.channelByPlayerId.insert playerId channelId
  playerIdByChannelId := m.playerIdByChannelId.insert channelId playerId

def removePlayer (m : PlayerConnectionManager) (playerId channelId : Int) :
    PlayerConnectionManager where
  channelByPlayerId := m.channelByPlayerId.erase playerId
  playerIdByChannelId := m.playerIdByChannelId.erase channelId

variable {β : Type} [QByteArray β]

def playerMessageFromSouth (m : PlayerConnectionManager) (channelId : Int) (msg : β) :
    List (Int × String) :=
  match m.playerIdByChannelId[channelId]? with
  | some playerId => [(playerId, QByteArray.toQString msg)]
  | none => []

end PlayerConnectionManager

end GBerry.Server
